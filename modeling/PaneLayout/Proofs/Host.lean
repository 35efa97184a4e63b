import PaneLayout.Host.Queued
import PaneLayout.Proofs.Play
import Mathlib.Data.List.Infix

set_option autoImplicit false

/-!
# Hosts that answer requests

What the theory assumes of hosts, from less to more. A logged host keeps the calls made to it. An
answering host creates sessions, in answer to requests and for nothing else, the oldest request
first. A cooperative host, besides, gives every session that it creates a name of its own and the
focus, and moves the focus for no other reason than to follow a call.

## Main definitions

* `PaneLayout.LoggedHost`, `PaneLayout.AnsweringHost`, `PaneLayout.CooperativeHost` — the classes.
* `PaneLayout.AnsweringHost.Answers`, `PaneLayout.CooperativeHost.Serves` — what such hosts do by
  themselves, between the calls made to them.
* `PaneLayout.LoggedHost.issued`, `PaneLayout.AnsweringHost.own` — the requests made since some
  moment, and the sessions created in answer to them.
* `PaneLayout.CooperativeHost.Since`, `PaneLayout.CooperativeHost.Front` — what calls and the host's
  own doings keep true: new sessions have new names, and the latest one has the focus.
* `PaneLayout.RosterHost` — a cooperative host that can be run.

## Main results

* `PaneLayout.CooperativeHost.Since.applyAll?`, `PaneLayout.CooperativeHost.Since.serves` — whatever
  happens to a cooperative host, names stay apart.
* `PaneLayout.CooperativeHost.front_request`, `PaneLayout.CooperativeHost.Serves.front` — a request
  that is answered last puts its session in front.

## Implementation notes

The names of the sessions that were created are kept in the order of the requests they answer, so
the sessions for the first `n` requests are the first `n` names. Whether a session is created within
the call that asks for it or at any time later is left open: the classes bound what a call may do,
and `Answers` and `Serves` bound what may happen between calls.
-/

namespace PaneLayout

/-- **Logged hosts** keep the calls made to them, the oldest first. -/
class LoggedHost (H : Type) extends SessionHost H where
  calls : H → List HostCall
  calls_apply : ∀ (call : HostCall) (host : H), calls (call.apply host) = calls host ++ [call]
  calls_idle : ∀ host : H, calls (SessionHost.idle host) = calls host

namespace LoggedHost

variable {H : Type} [LoggedHost H]

/-- The requests made to a host, the oldest first. -/
def requests (host : H) : List SessionRequest := (calls host).filterMap HostCall.request?

/-- A call is logged, and so is the request it makes. -/
theorem requests_apply (call : HostCall) (host : H) :
    requests (call.apply host) = requests host ++ call.request?.toList := by
  rw [requests, calls_apply, List.filterMap_append, ← requests]
  cases call <;> rfl

/-- A host that goes on by itself logs no request. -/
theorem requests_idle (host : H) : requests (SessionHost.idle host) = requests host := by
  rw [requests, calls_idle, requests]

/-- The requests made since the host was as it was at the start. -/
def issued (start host : H) : List SessionRequest := (requests host).drop (requests start).length

/-- At the start, no request has been made since the start. -/
@[simp] theorem issued_self (start : H) : issued start start = [] := List.drop_length

/-- As long as no request is made, the requests since the start stay the same. -/
theorem issued_congr {host next : H} (start : H) (h : requests next = requests host) :
    issued start next = issued start host := by
  rw [issued, issued, h]

/-- Requests that are made come last. -/
theorem issued_append {start host next : H} {rs : List SessionRequest}
    (hstart : requests start <+: requests host) (h : requests next = requests host ++ rs) :
    issued start next = issued start host ++ rs := by
  rw [issued, h, List.drop_append_of_le_length hstart.length_le, issued]

/-- Making the call of an instruction, or none, logs just that. -/
theorem calls_applyAll? (call : Option HostCall) (host : H) :
    calls (HostCall.applyAll? call host) = calls host ++ call.toList := by
  cases call with
  | none => simp [HostCall.applyAll?, calls_idle]
  | some call => simp [HostCall.applyAll?, calls_apply]

end LoggedHost

open LoggedHost

namespace Sequencer

variable {H : Type} [LoggedHost H]

/-- Taking up a split makes its request. -/
theorem requests_hostAfter_split (s : Sequencer) (m : Mode) (p : Nat) (rest : List Instruction)
    (host : H) :
    requests (s.hostAfter (.split m p) rest host) = requests host ++ [⟨s.cwd, m.splitHint⟩] := by
  rw [hostAfter, call?_split, HostCall.applyAll?, requests_apply, enter_cwd]
  rfl

/-- Taking up any other instruction makes no request. -/
theorem requests_hostAfter {i : Instruction} (hi : i.isSplit = false) (s : Sequencer)
    (rest : List Instruction) (host : H) :
    requests (s.hostAfter i rest host) = requests host := by
  rw [hostAfter]
  cases hcall : (s.enter i rest (SessionHost.active host)).call? i with
  | none => exact requests_idle host
  | some call =>
    rw [HostCall.applyAll?, requests_apply, request?_of_call? hi hcall]
    exact List.append_nil _

end Sequencer

/-- **Answering hosts.** Some sessions were there before, and the others were created in answer to
requests; a session that is created answers the oldest request that is open. -/
class AnsweringHost (H : Type) extends LoggedHost H where
  native : H → List SessionId
  created : H → List SessionId
  native_apply : ∀ (call : HostCall) (host : H), native (call.apply host) = native host
  created_apply : ∀ (call : HostCall) (host : H), created host <+: created (call.apply host)
  created_le : ∀ (call : HostCall) (host : H),
    (created host).length ≤ (requests host).length →
      (created (call.apply host)).length ≤ (requests (call.apply host)).length
  native_idle : ∀ host : H, native (SessionHost.idle host) = native host
  created_idle : ∀ host : H, created host <+: created (SessionHost.idle host)
  created_idle_le : ∀ host : H, (created host).length ≤ (requests host).length →
    (created (SessionHost.idle host)).length ≤ (requests host).length

namespace AnsweringHost

variable {H : Type} [AnsweringHost H]

/-- All sessions that a host has ever had. -/
def sessions (host : H) : List SessionId := native host ++ created host

/-- The sessions created in answer to the requests made since the start. -/
def own (start host : H) : List SessionId := (created host).drop (requests start).length

/-- If there are no more sessions than requests, this is true of those since the start. -/
theorem own_le {host : H} (h : (created host).length ≤ (requests host).length) (start : H) :
    (own start host).length ≤ (issued start host).length := by
  rw [own, issued, List.length_drop, List.length_drop]
  exact Nat.sub_le_sub_right h _

/-- **Growth.** What the calls made to a host and its own doings have in common: requests and
sessions are added behind those there are, and no session is created without a request. -/
structure Grows (host next : H) : Prop where
  native : native next = native host
  requests : requests host <+: requests next
  created : created host <+: created next
  created_le : (AnsweringHost.created host).length ≤ (LoggedHost.requests host).length →
    (AnsweringHost.created next).length ≤ (LoggedHost.requests next).length

namespace Grows

/-- A host grows to what it is. -/
theorem refl (host : H) : Grows host host :=
  ⟨rfl, List.prefix_refl _, List.prefix_refl _, id⟩

/-- Growth after growth is growth. -/
theorem trans {host next last : H} (h : Grows host next) (h' : Grows next last) :
    Grows host last :=
  ⟨h'.native.trans h.native, h.requests.trans h'.requests, h.created.trans h'.created,
    fun hle => h'.created_le (h.created_le hle)⟩

/-- Calls make a host grow. -/
theorem apply (call : HostCall) (host : H) : Grows host (call.apply host) :=
  ⟨native_apply call host, requests_apply call host ▸ List.prefix_append _ _,
    created_apply call host, AnsweringHost.created_le call host⟩

/-- A host that goes on by itself grows. -/
theorem idle (host : H) : Grows host (SessionHost.idle host) :=
  ⟨native_idle host, requests_idle host ▸ List.prefix_refl _, created_idle host,
    fun hle => requests_idle host ▸ created_idle_le host hle⟩

/-- The call of an instruction, or none, makes a host grow. -/
theorem applyAll? (call : Option HostCall) (host : H) :
    Grows host (HostCall.applyAll? call host) := by
  cases call with
  | none => exact idle host
  | some call => exact apply call host

/-- The sessions of later requests are added behind those there are. -/
theorem own {host next : H} (h : Grows host next) (start : H) :
    AnsweringHost.own start host <+: AnsweringHost.own start next :=
  List.IsPrefix.drop h.created _

/-- No session that was there is ever missing. -/
theorem sessions {host next : H} (h : Grows host next) :
    AnsweringHost.sessions host ⊆ AnsweringHost.sessions next := by
  intro id hid
  rw [AnsweringHost.sessions, List.mem_append] at hid ⊢
  exact hid.imp (h.native ▸ ·) (h.created.subset ·)

/-- If no request was open, all sessions there are were there or answer later requests. -/
theorem mem_sessions {host next : H} (h : Grows host next)
    (hlen : (AnsweringHost.created host).length = (LoggedHost.requests host).length)
    {id : SessionId} (hid : id ∈ AnsweringHost.sessions next) :
    id ∈ AnsweringHost.sessions host ∨ id ∈ AnsweringHost.own host next := by
  obtain ⟨more, hmore⟩ := h.created
  have hown : AnsweringHost.own host next = more := by
    rw [AnsweringHost.own, ← hmore, ← hlen, List.drop_left]
  rw [AnsweringHost.sessions, h.native, ← hmore, ← List.append_assoc, List.mem_append] at hid
  exact hown ▸ hid

end Grows

/-- **What an answering host does by itself**: it calls nobody, and creates sessions for requests
that are open. The focus may move at will. -/
structure Answers (host next : H) : Prop where
  calls : calls next = calls host
  native : native next = native host
  created : created host <+: created next
  created_le : (AnsweringHost.created next).length ≤ (requests next).length

/-- What an answering host does by itself leaves the requests as they are. -/
theorem Answers.requests_eq {host next : H} (h : Answers host next) :
    requests next = requests host := by
  rw [LoggedHost.requests, LoggedHost.requests, h.calls]

/-- What an answering host does by itself makes it grow. -/
theorem Answers.grows {host next : H} (h : Answers host next) : Grows host next :=
  ⟨h.native, h.requests_eq ▸ List.prefix_refl _, h.created, fun _ => h.created_le⟩

end AnsweringHost

open AnsweringHost

/-- **Cooperative hosts.** A session may be created within the call that asks for it, and then has
the focus; its name has never been used before. Focusing a session that is there works. Nothing
else moves the focus. -/
class CooperativeHost (H : Type) extends AnsweringHost H where
  active_send : ∀ (host : H) (id : SessionId) (text : String),
    SessionHost.active (SessionHost.send host id text) = SessionHost.active host
  created_send : ∀ (host : H) (id : SessionId) (text : String),
    created (SessionHost.send host id text) = created host
  active_focus : ∀ (host : H), ∀ id ∈ sessions host,
    SessionHost.active (SessionHost.focus host id) = some id
  created_focus : ∀ (host : H) (id : SessionId),
    created (SessionHost.focus host id) = created host
  active_idle : ∀ host : H, SessionHost.active (SessionHost.idle host) = SessionHost.active host
  created_idle_eq : ∀ host : H, created (SessionHost.idle host) = created host
  request_cases : ∀ (host : H) (r : SessionRequest),
    (SessionHost.active (SessionHost.request host r) = SessionHost.active host ∧
        created (SessionHost.request host r) = created host) ∨
      ∃ id, id ∉ sessions host ∧ SessionHost.active (SessionHost.request host r) = some id ∧
        created (SessionHost.request host r) = created host ++ [id]

namespace CooperativeHost

variable {H : Type} [CooperativeHost H]

/-- **What a cooperative host does by itself**: nothing that can be seen, or it answers the oldest
open request by a session with a new name, which gets the focus. -/
structure Serves (host next : H) : Prop where
  calls : calls next = calls host
  native : native next = native host
  cases : (SessionHost.active next = SessionHost.active host ∧ created next = created host) ∨
    ((created host).length < (requests host).length ∧ ∃ id, id ∉ sessions host ∧
      SessionHost.active next = some id ∧ created next = created host ++ [id])

/-- What a cooperative host does by itself leaves the requests as they are. -/
theorem Serves.requests_eq {host next : H} (h : Serves host next) :
    requests next = requests host := by
  rw [LoggedHost.requests, LoggedHost.requests, h.calls]

/-- What a cooperative host does by itself, an answering host may do. -/
theorem Serves.answers {host next : H} (h : Serves host next)
    (hle : (created host).length ≤ (requests host).length) : Answers host next := by
  refine ⟨h.calls, h.native, ?_, ?_⟩
  · rcases h.cases with ⟨-, hc⟩ | ⟨-, id, -, -, hc⟩
    · exact hc ▸ List.prefix_refl _
    · exact hc ▸ List.prefix_append _ _
  · rw [h.requests_eq]
    rcases h.cases with ⟨-, hc⟩ | ⟨hopen, id, -, -, hc⟩
    · exact hc ▸ hle
    · rw [hc, List.length_append, List.length_singleton]
      omega

/-- A call creates one session with a new name, or none. -/
theorem created_apply_cases (call : HostCall) (host : H) :
    created (call.apply host) = created host ∨
      ∃ id, id ∉ sessions host ∧ created (call.apply host) = created host ++ [id] := by
  cases call with
  | request r =>
    rcases request_cases host r with ⟨-, hc⟩ | ⟨id, hid, -, hc⟩
    · exact .inl hc
    · exact .inr ⟨id, hid, hc⟩
  | send id text => exact .inl (created_send host id text)
  | focus id => exact .inl (created_focus host id)

/-! ### Since the start -/

/-- **Since the start,** the host has grown, no more sessions have been created than requested, and
those that have been created got new names, all different. -/
structure Since (start host : H) : Prop where
  grows : Grows start host
  created_le : (created host).length ≤ (requests host).length
  nodup : ((created host).drop (created start).length).Nodup
  fresh : ∀ id ∈ (created host).drop (created start).length, id ∉ sessions start

namespace Since

variable {start host next : H}

/-- At the start, nothing has happened. -/
theorem refl (hle : (created start).length ≤ (requests start).length) : Since start start :=
  ⟨Grows.refl start, hle, by simp, by simp⟩

/-- A session that gets a new name keeps the names apart. -/
theorem step (h : Since start host) (hgrows : Grows host next)
    (hcreated : created next = created host ∨
      ∃ id, id ∉ sessions host ∧ created next = created host ++ [id]) : Since start next := by
  rcases hcreated with hc | ⟨id, hid, hc⟩
  · exact ⟨h.grows.trans hgrows, hgrows.created_le h.created_le, hc ▸ h.nodup, hc ▸ h.fresh⟩
  · have hdrop : (created next).drop (created start).length =
        (created host).drop (created start).length ++ [id] := by
      rw [hc, List.drop_append_of_le_length h.grows.created.length_le]
    have hnew : id ∉ created host := fun hmem => hid (List.mem_append_right _ hmem)
    refine ⟨h.grows.trans hgrows, hgrows.created_le h.created_le, ?_, ?_⟩
    · rw [hdrop, List.nodup_append]
      refine ⟨h.nodup, by simp, fun x hx y hy => ?_⟩
      rintro rfl
      exact hnew (List.mem_singleton.1 hy ▸ List.mem_of_mem_drop hx)
    · rw [hdrop]
      intro x hx
      rcases List.mem_append.1 hx with hx | hx
      · exact h.fresh x hx
      · rw [List.mem_singleton.1 hx]
        exact fun hold => hid (h.grows.sessions hold)

/-- Calls keep the names apart. -/
theorem applyAll? (h : Since start host) (call : Option HostCall) :
    Since start (HostCall.applyAll? call host) := by
  cases call with
  | none => exact h.step (Grows.idle host) (.inl (created_idle_eq host))
  | some call => exact h.step (Grows.apply call host) (created_apply_cases call host)

/-- What a cooperative host does by itself keeps the names apart. -/
theorem serves (h : Since start host) (hserves : Serves host next) : Since start next := by
  refine h.step (hserves.answers h.created_le).grows ?_
  rcases hserves.cases with ⟨-, hc⟩ | ⟨-, id, hid, -, hc⟩
  · exact .inl hc
  · exact .inr ⟨id, hid, hc⟩

/-- The layout's own sessions are all different, if there were no more sessions than requests. -/
theorem nodup_own (h : Since start host)
    (hle : (created start).length ≤ (requests start).length) : (own start host).Nodup :=
  h.nodup.sublist (List.drop_suffix_drop_left _ hle).sublist

/-- The layout's own sessions were not there at the start. -/
theorem notMem_of_own (h : Since start host)
    (hle : (created start).length ≤ (requests start).length) {id : SessionId}
    (hid : id ∈ own start host) : id ∉ sessions start :=
  h.fresh id ((List.drop_suffix_drop_left _ hle).subset hid)

end Since

/-! ### The session in front -/

/-- **In front.** The session that answers the latest request has the focus, as soon as it is
there. -/
def Front (host : H) : Prop :=
  ∀ n id, (requests host).length = n + 1 → (created host)[n]? = some id →
    SessionHost.active host = some id

/-- If the last session there can be has been created just now, it is in front. -/
theorem front_of_append {host next : H} {id : SessionId} {n : Nat}
    (hreq : (requests next).length = n + 1) (hle : (created host).length ≤ n)
    (hactive : SessionHost.active next = some id) (hc : created next = created host ++ [id]) :
    Front next := by
  intro m x hm hx
  obtain rfl : n = m := by omega
  rw [hc, List.getElem?_append_right hle] at hx
  obtain ⟨-, rfl⟩ := List.getElem?_eq_some_iff.1 hx
  rw [hactive, List.getElem_singleton]

/-- After a request, the session that answers it will be in front, or is. -/
theorem front_request {host : H} (hle : (created host).length ≤ (requests host).length)
    (r : SessionRequest) : Front (SessionHost.request host r) := by
  have hreq : (requests (SessionHost.request host r)).length = (requests host).length + 1 := by
    have h := requests_apply (.request r) host
    rw [HostCall.apply] at h
    rw [h, List.length_append]
    rfl
  rcases request_cases host r with ⟨-, hc⟩ | ⟨id, -, hactive, hc⟩
  · intro n id hn hid
    rw [hc, List.getElem?_eq_none (by omega)] at hid
    exact absurd hid (by simp)
  · exact front_of_append hreq hle hactive hc

/-- The session in front stays there while the host goes on by itself. -/
theorem Serves.front {host next : H} (h : Serves host next) (hfront : Front host) :
    Front next := by
  rcases h.cases with ⟨hactive, hc⟩ | ⟨hopen, id, -, hactive, hc⟩
  · intro n id hn hid
    rw [hactive]
    exact hfront n id (h.requests_eq ▸ hn) (hc ▸ hid)
  · obtain ⟨n, hn⟩ : ∃ n, (requests host).length = n + 1 :=
      Nat.exists_eq_add_one_of_ne_zero (by omega)
    exact front_of_append (h.requests_eq ▸ hn) (by omega) hactive hc

end CooperativeHost

/-! ### A cooperative host that can be run -/

/-- **Hosts with a roster.** The session with the focus, the sessions there were and those created,
and the log. No request is answered within the call. -/
structure RosterHost where
  active : Option SessionId
  native : List SessionId
  created : List SessionId
  calls : List HostCall
  deriving DecidableEq, Repr

namespace RosterHost

/-- Records a call. -/
def note (host : RosterHost) (call : HostCall) : RosterHost :=
  { host with calls := host.calls ++ [call] }

/-- Answers the oldest open request by a session, which gets the focus. -/
def create (host : RosterHost) (id : SessionId) : RosterHost :=
  { host with active := some id, created := host.created ++ [id] }

instance : SessionHost RosterHost where
  active host := host.active
  request host r := host.note (.request r)
  send host id text := host.note (.send id text)
  focus host id := { host.note (.focus id) with active := some id }

/-- No call touches the sessions, and every call is recorded. -/
theorem apply_eq (call : HostCall) (host : RosterHost) :
    ∃ active, call.apply host = ⟨active, host.native, host.created, host.calls ++ [call]⟩ := by
  cases call <;> exact ⟨_, rfl⟩

instance : LoggedHost RosterHost where
  calls := RosterHost.calls
  calls_apply call host := by
    obtain ⟨active, h⟩ := apply_eq call host
    rw [h]
  calls_idle _ := rfl

instance : AnsweringHost RosterHost where
  native := RosterHost.native
  created := RosterHost.created
  native_apply call host := by
    obtain ⟨active, h⟩ := apply_eq call host
    rw [h]
  created_apply call host := by
    obtain ⟨active, h⟩ := apply_eq call host
    rw [h]
  created_le call host hle := by
    obtain ⟨active, h⟩ := apply_eq call host
    rw [requests_apply, List.length_append, h]
    exact Nat.le_add_right_of_le hle
  native_idle _ := rfl
  created_idle _ := List.prefix_refl _
  created_idle_le _ hle := hle

instance : CooperativeHost RosterHost where
  active_send _ _ _ := rfl
  created_send _ _ _ := rfl
  active_focus _ _ _ := rfl
  created_focus _ _ := rfl
  active_idle _ := rfl
  created_idle_eq _ := rfl
  request_cases _ _ := .inl ⟨rfl, rfl⟩

/-- A session with a new name is an answer to the oldest open request. -/
theorem serves_create {host : RosterHost} {id : SessionId}
    (hopen : (AnsweringHost.created host).length < (requests host).length)
    (hid : id ∉ sessions host) : CooperativeHost.Serves host (host.create id) :=
  ⟨rfl, rfl, .inr ⟨hopen, id, hid, rfl, rfl⟩⟩

/-- No session is created while a sequencer plays. -/
theorem created_run (s : Sequencer) (host : RosterHost) :
    (s.run host).host.created = host.created := by
  refine Sequencer.run_induct
    (P := fun _ _ (host' : RosterHost) => host'.created = host.created)
    (Q := fun _ (host' : RosterHost) => host'.created = host.created) id ?_ ?_ rfl
  · intro s' m p rest host' h
    exact h
  · intro s' i rest host' _ h
    rw [Sequencer.hostAfter]
    cases (s'.enter i rest (SessionHost.active host')).call? i with
    | none => exact h
    | some call =>
      obtain ⟨active, hcall⟩ := apply_eq call host'
      rw [HostCall.applyAll?, hcall]
      exact h

end RosterHost

end PaneLayout
