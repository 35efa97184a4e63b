import PaneLayout.Proofs.Host
import PaneLayout.Proofs.Scene

set_option autoImplicit false

/-!
# One split at a time

A host gives no sign that tells a session just created from one that has been there all along, so a
sequencer takes every session that it has not heard of for the one it waits for. As long as it hears
of no strangers, it never makes a request before the one before has been answered. This file proves
that, and shows that hearing of a stranger is all that it takes to break it.

## Main definitions

* `PaneLayout.Met` — the first sessions of a list have been heard of.
* `PaneLayout.Attentive`, `PaneLayout.Standing` — the sequencer has heard only of sessions of its
  own, and of all of them that answer a request before its last one.
* `PaneLayout.Accounted` — the invariant of scenes.
* `PaneLayout.Scene.Audible` — the sessions that are no strangers.
* `PaneLayout.Scene.SingleFlight` — at most one request is open.

## Main results

* `PaneLayout.Sequencer.run_answering` — what a play does to an answering host.
* `PaneLayout.Accounted.after` — the invariant is preserved as long as no stranger is heard of.
* `PaneLayout.Accounted.launched` — every launch establishes it.
* `PaneLayout.Scene.Reaches.exists_resumes` — a stranger is enough to make a resumption due.
* `PaneLayout.singleFlight_iff_no_strangers` — one request at a time, exactly if there are no
  strangers.
-/

namespace PaneLayout

open LoggedHost AnsweringHost

/-- **Sessions met.** The first `n` of the sessions are there and have been heard of. -/
def Met (ids known : List SessionId) (n : Nat) : Prop := ∀ i < n, ∃ id ∈ known, ids[i]? = some id

namespace Met

variable {ids known : List SessionId} {n : Nat}

/-- Sessions that have been met are there. -/
theorem le_length (h : Met ids known n) : n ≤ ids.length := by
  by_contra hlt
  obtain ⟨id, -, hid⟩ := h ids.length (by omega)
  simp at hid

/-- Sessions that have been met stay met when more sessions are created and heard of. -/
theorem mono {ids' known' : List SessionId} (h : Met ids known n) (hids : ids <+: ids')
    (hknown : known ⊆ known') : Met ids' known' n := by
  intro i hi
  obtain ⟨id, hid, hget⟩ := h i hi
  obtain ⟨more, rfl⟩ := hids
  exact ⟨id, hknown hid, by
    rw [List.getElem?_append_left (List.getElem?_eq_some_iff.1 hget).1, hget]⟩

/-- One more session is met. -/
theorem succ {id : SessionId} (h : Met ids known n) (hid : id ∈ known)
    (hget : ids[n]? = some id) : Met ids known (n + 1) := by
  intro i hi
  rcases Nat.lt_succ_iff_lt_or_eq.1 hi with hi | rfl
  · exact h i hi
  · exact ⟨id, hid, hget⟩

/-- A session of the list that has not been met yet comes behind those that have. -/
theorem le_of_notMem {id : SessionId} {i : Nat} (h : Met ids known n) (hid : id ∉ known)
    (hget : ids[i]? = some id) : n ≤ i := by
  by_contra hlt
  obtain ⟨id', hid', hget'⟩ := h i (by omega)
  rw [hget, Option.some.injEq] at hget'
  exact hid (hget' ▸ hid')

end Met

/-! ### Plays on answering hosts -/

namespace Sequencer

variable {H : Type} [AnsweringHost H]

/-- **A play on an answering host.** The sequencer hears of no session meanwhile. It ends finished,
if there is no split to play, or waiting, after the request of a split of its queue. -/
theorem run_answering (s : Sequencer) (host : H) :
    ((s.run host).sequencer.known = s.known ∧ (s.run host).sequencer.cwd = s.cwd) ∧
    Grows host (s.run host).host ∧
    ((s.run host).sequencer.isFinished = true ∧ (∀ i ∈ s.queue, i.isSplit = false) ∧
        requests (s.run host).host = requests host ∨
      (s.run host).sequencer.phase = .awaitingSession ∧ ∃ m p, .split m p ∈ s.queue ∧
        requests (s.run host).host = requests host ++ [⟨s.cwd, m.splitHint⟩]) := by
  refine run_induct
    (P := fun s' queue host' => (s'.known = s.known ∧ s'.cwd = s.cwd) ∧ Grows host host' ∧
      requests host' = requests host ∧
        ∃ done, s.queue = done ++ queue ∧ ∀ i ∈ done, i.isSplit = false)
    (Q := fun s' host' => (s'.known = s.known ∧ s'.cwd = s.cwd) ∧ Grows host host' ∧
      (s'.isFinished = true ∧ (∀ i ∈ s.queue, i.isSplit = false) ∧
          requests host' = requests host ∨
        s'.phase = .awaitingSession ∧ ∃ m p, .split m p ∈ s.queue ∧
          requests host' = requests host ++ [⟨s.cwd, m.splitHint⟩])) ?_ ?_ ?_
    ⟨⟨rfl, rfl⟩, Grows.refl host, rfl, [], rfl, by simp⟩
  · rintro s' host' ⟨hs, hgrows, hreq, done, hqueue, hdone⟩
    rw [List.append_nil] at hqueue
    exact ⟨hs, hgrows, .inl ⟨rfl, hqueue ▸ hdone, hreq⟩⟩
  · rintro s' m p rest host' ⟨hs, hgrows, hreq, done, hqueue, -⟩
    exact ⟨by simpa using hs, hgrows.trans (Grows.applyAll? _ host'),
      .inr ⟨rfl, m, p, by simp [hqueue], by rw [requests_hostAfter_split, hreq, hs.2]⟩⟩
  · rintro s' i rest host' hi ⟨hs, hgrows, hreq, done, hqueue, hdone⟩
    exact ⟨by simpa using hs, hgrows.trans (Grows.applyAll? _ host'),
      by rw [requests_hostAfter hi, hreq], done ++ [i], by simp [hqueue],
      by simpa [or_imp, forall_and, hi] using hdone⟩

end Sequencer

/-! ### The invariant -/

variable {H : Type} [AnsweringHost H]

/-- **Attention.** The sequencer knows the session that had the focus at the start, and apart from
it only its own; and its requests are all for one directory. -/
structure Attentive (start : H) (cwd : String) (host : H) (s : Sequencer) : Prop where
  known : ∀ id ∈ s.known, SessionHost.active start = some id ∨ id ∈ own start host
  first : ∀ id, SessionHost.active start = some id → id ∈ s.known
  cwd_eq : s.cwd = cwd

/-- **Standing.** The sequencer has finished and met all of its sessions, or it waits for the last
of them and has met all before that. -/
def Standing (start host : H) (s : Sequencer) : Prop :=
  (s.isFinished = true ∧ Met (own start host) s.known (issued start host).length) ∨
    ∃ n, s.phase = .awaitingSession ∧ (issued start host).length = n + 1 ∧
      Met (own start host) s.known n

/-- **Accounts.** At most one of the requests made since the start is open, and they are all for one
directory. The live sequencer, if there is one, is attentive, and a resumption is due only when it
has met all of its sessions. -/
structure Accounted (start : H) (cwd : String) (w : Scene H) : Prop where
  grows : Grows start w.host
  created_le : (created w.host).length ≤ (requests w.host).length
  cwd_eq : ∀ r ∈ issued start w.host, r.cwd = cwd
  single : (issued start w.host).length ≤ (own start w.host).length + 1
  attentive : ∀ s, w.driver.sequencer = some s → Attentive start cwd w.host s
  standing : ∀ s, w.driver.sequencer = some s → Standing start w.host s
  due : w.driver.resumePending = true → ∃ s, w.driver.sequencer = some s ∧
    s.phase = .awaitingSession ∧ Met (own start w.host) s.known (issued start w.host).length

/-- **No strangers.** The session has been heard of, had the focus at the start, or is one of the
sequencer's own; or it does not matter, since nothing is left to play. -/
def Scene.Audible (start : H) (w : Scene H) (id : SessionId) : Prop :=
  ∀ s, w.driver.sequencer = some s → s.isFinished = false →
    id ∈ s.known ∨ SessionHost.active start = some id ∨ id ∈ own start w.host

/-- At most one of the requests of the layout is open, and none when the sequencer plays on. -/
def Scene.SingleFlight (start : H) (w : Scene H) : Prop :=
  (issued start w.host).length ≤ (own start w.host).length + 1 ∧
    (w.Resumes → (issued start w.host).length ≤ (own start w.host).length)

section Sequencer

variable {start host next : H} {cwd : String} {s : Sequencer}

/-- More sessions leave a sequencer attentive. -/
theorem Attentive.mono (h : Attentive start cwd host s) (hgrows : Grows host next) :
    Attentive start cwd next s :=
  ⟨fun id hid => (h.known id hid).imp_right ((hgrows.own start).subset ·), h.first, h.cwd_eq⟩

/-- A play leaves a sequencer attentive. -/
theorem Attentive.run (h : Attentive start cwd host s) :
    Attentive start cwd (s.run host).host (s.run host).sequencer := by
  obtain ⟨⟨hknown, hcwd⟩, hgrows, -⟩ := s.run_answering host
  have hlater := h.mono hgrows
  exact ⟨hknown ▸ hlater.known, hknown ▸ hlater.first, hcwd.trans hlater.cwd_eq⟩

/-- More sessions do not change how a sequencer stands, if no request is made. -/
theorem Standing.mono (h : Standing start host s) (hgrows : Grows host next)
    (hissued : issued start next = issued start host) : Standing start next s := by
  have hown := hgrows.own start
  rw [Standing, hissued]
  rcases h with ⟨hfin, hmet⟩ | ⟨n, hphase, hlen, hmet⟩
  · exact .inl ⟨hfin, hmet.mono hown (List.Subset.refl _)⟩
  · exact .inr ⟨n, hphase, hlen, hmet.mono hown (List.Subset.refl _)⟩

/-- A sequencer that has met all of its sessions stands as it should after a play. -/
theorem Standing.run (hgrows : Grows start host)
    (hmet : Met (own start host) s.known (issued start host).length) :
    Standing start (s.run host).host (s.run host).sequencer := by
  obtain ⟨⟨hknown, -⟩, hplay, hend⟩ := s.run_answering host
  have hlater := hmet.mono (hplay.own start) (List.Subset.refl _)
  rw [Standing, hknown]
  rcases hend with ⟨hfin, -, hreq⟩ | ⟨hphase, m, p, -, hreq⟩
  · exact .inl ⟨hfin, issued_congr start hreq ▸ hlater⟩
  · refine .inr ⟨_, hphase, ?_, hlater⟩
    rw [issued_append hgrows.requests hreq, List.length_append, List.length_singleton]

/-- However a sequencer stands, at most one of its requests is open. -/
theorem Standing.single (h : Standing start host s) :
    (issued start host).length ≤ (own start host).length + 1 := by
  rcases h with ⟨-, hmet⟩ | ⟨n, -, hlen, hmet⟩
  · exact Nat.le_succ_of_le hmet.le_length
  · exact hlen ▸ Nat.succ_le_succ hmet.le_length

/-- **Playing on keeps the accounts.** A sequencer that has met all of its sessions may make one
more request. -/
theorem Accounted.run (settings : Settings) (hgrows : Grows start host)
    (hle : (created host).length ≤ (requests host).length)
    (hcwd : ∀ r ∈ issued start host, r.cwd = cwd) (hatt : Attentive start cwd host s)
    (hmet : Met (own start host) s.known (issued start host).length) :
    Accounted start cwd ⟨⟨settings, some (s.run host).sequencer, false⟩, (s.run host).host⟩ := by
  have hstanding := Standing.run hgrows hmet
  obtain ⟨-, hplay, hend⟩ := s.run_answering host
  refine ⟨hgrows.trans hplay, hplay.created_le hle, ?_, hstanding.single, ?_, ?_, by simp⟩
  · rcases hend with ⟨-, -, hreq⟩ | ⟨-, m, p, -, hreq⟩
    · rw [issued_congr start hreq]
      exact hcwd
    · rw [issued_append hgrows.requests hreq]
      simp only [List.mem_append, List.mem_singleton]
      rintro r (hr | rfl)
      · exact hcwd r hr
      · exact hatt.cwd_eq
  · rintro _ ⟨⟩
    exact hatt.run
  · rintro _ ⟨⟩
    exact hstanding

end Sequencer

/-- **A launch opens the accounts.** -/
theorem Accounted.launched (w : Scene H) (hle : (created w.host).length ≤ (requests w.host).length)
    (request : LayoutRequest) (plan : Plan) :
    Accounted w.host request.cwd (w.launched request plan) := by
  refine Accounted.run w.driver.settings (Grows.refl _) hle (by simp) ⟨?_, ?_, rfl⟩ ?_
  · intro id hid
    exact .inl (Option.mem_toList.1 hid)
  · intro id hid
    exact Option.mem_toList.2 hid
  · rw [issued_self]
    intro i hi
    exact absurd hi (Nat.not_lt_zero i)

/-- **Hearing of the last session.** A session of its own that a waiting sequencer has not heard of
is the one that answers its last request, and with it all have been met. -/
theorem Standing.met_of_notMem {start host : H} {s : Sequencer} {id : SessionId}
    (h : Standing start host s) (hle : (created host).length ≤ (requests host).length)
    (hfin : s.isFinished = false) (hnew : id ∉ s.known) (hid : id ∈ own start host) :
    s.phase = .awaitingSession ∧
      Met (own start host) (id :: s.known) (issued start host).length := by
  rcases h with ⟨hfin', -⟩ | ⟨n, hphase, hlen, hmet⟩
  · simp [hfin'] at hfin
  · obtain ⟨i, hi, hget⟩ := List.mem_iff_getElem.1 hid
    have hget? : (own start host)[i]? = some id := List.getElem?_eq_some_iff.2 ⟨hi, hget⟩
    have hni : n ≤ i := hmet.le_of_notMem hnew hget?
    have hown := own_le hle start
    have hin : i = n := by omega
    subst hin
    have hmore := hmet.mono (List.prefix_refl _) (List.subset_cons_self id s.known)
    rw [hlen]
    exact ⟨hphase, hmore.succ (by simp) hget?⟩

/-- **The accounts stay right** as long as no stranger is heard of.

**Proof sketch.** A session that the sequencer hears of for the first time is one of its own, and
not one of those it has met; so it answers the last request, and all sessions have been met. A
resumption that is due then finds no request open. -/
theorem Accounted.after {start : H} {cwd : String} {w : Scene H} {a : Happening H}
    (h : Accounted start cwd w) (ha : w.Undisturbed Answers (Scene.Audible start) a) :
    Accounted start cwd (w.after a) := by
  obtain ⟨hgrows, hle, hcwd, hsingle, hattentive, hstanding, hdue⟩ := h
  refine Scene.Undisturbed.induct (P := Accounted start cwd) ?settings ?hears ?rests ?resumes
    ?detach ?host ha
  case settings => exact fun kept => ⟨hgrows, hle, hcwd, hsingle, hattentive, hstanding, hdue⟩
  case rests => exact ⟨hgrows, hle, hcwd, hsingle, hattentive, hstanding, by simp⟩
  case detach =>
    exact fun _ => ⟨hgrows, hle, hcwd, hsingle, by simp [LayoutDriver.detach],
      by simp [LayoutDriver.detach], by simp [LayoutDriver.detach]⟩
  case resumes =>
    intro s hs hpending hphase
    obtain ⟨s', hs', -, hmet⟩ := hdue hpending
    obtain rfl : s = s' := Option.some.inj (hs.symm.trans hs')
    exact Accounted.run w.driver.settings hgrows hle hcwd (hattentive s hs) hmet
  case host =>
    intro next hnext
    have hissued : issued start next = issued start w.host :=
      issued_congr start hnext.requests_eq
    have hown := hnext.grows.own start
    refine ⟨hgrows.trans hnext.grows, hnext.created_le, hissued ▸ hcwd, ?_,
      fun s hs => (hattentive s hs).mono hnext.grows,
      fun s hs => (hstanding s hs).mono hnext.grows hissued, fun hpending => ?_⟩
    · rw [hissued]
      exact hsingle.trans (Nat.succ_le_succ hown.length_le)
    · obtain ⟨s, hs, hphase, hmet⟩ := hdue hpending
      exact ⟨s, hs, hphase, by rw [hissued]; exact hmet.mono hown (List.Subset.refl _)⟩
  case hears =>
    intro s id hs hfin hknows haudible
    have hatt := hattentive s hs
    have hnew : id ∉ s.known := by simpa [Sequencer.knows] using hknows
    have hown : id ∈ own start w.host := by
      rcases haudible s hs hfin with hknown | hfirst | hown
      · exact absurd hknown hnew
      · exact absurd (hatt.first id hfirst) hnew
      · exact hown
    obtain ⟨hphase, hmet⟩ := (hstanding s hs).met_of_notMem hle hfin hnew hown
    refine ⟨hgrows, hle, hcwd, hsingle, ?_, ?_, fun _ => ⟨_, rfl, hphase, hmet⟩⟩
    · rintro _ ⟨⟩
      refine ⟨fun x hx => ?_, fun x hx => List.mem_cons_of_mem _ (hatt.first x hx), hatt.cwd_eq⟩
      rcases List.mem_cons.1 hx with rfl | hx
      · exact .inr hown
      · exact hatt.known x hx
    · rintro _ ⟨⟩
      obtain ⟨hfin', -⟩ | ⟨n, -, hlen, hbefore⟩ := hstanding s hs
      · simp [hfin'] at hfin
      · exact .inr ⟨n, hphase, hlen,
          hbefore.mono (List.prefix_refl _) (List.subset_cons_self _ _)⟩

/-! ### Runs -/

namespace Scene

/-- **Notifications.** The session is there, and it is one of the sequencer's own, or had the focus
at the start, or is a stranger whose events come through. -/
def Notified (start : H) (heard : SessionId → Prop) (w : Scene H) (id : SessionId) : Prop :=
  id ∈ sessions w.host ∧
    (id ∈ own start w.host ∨ SessionHost.active start = some id ∨ heard id)

/-- A launch of a plan without splits plays it to the end. -/
theorem launched_finished {w₀ : Scene H} (request : LayoutRequest) {plan : Plan}
    (h : ∀ i ∈ plan.queue, i.isSplit = false) : (w₀.launched request plan).Finished := by
  obtain ⟨-, -, ⟨hfin, -⟩ | ⟨-, m, p, hmem, -⟩⟩ := (w₀.driver.fresh plan request.cwd
    (SessionHost.active w₀.host)).run_answering w₀.host
  · rintro _ ⟨⟩
    exact hfin
  · exact absurd (h _ hmem) (by simp [Instruction.isSplit])

section Runs

variable {moves : H → H → Prop} (w₀ : Scene H) {w : Scene H} {request : LayoutRequest} {plan : Plan}
  (hle : (created w₀.host).length ≤ (requests w₀.host).length)
  (hmoves : ∀ host next, (created host).length ≤ (requests host).length → moves host next →
    Answers host next)

include hle hmoves

/-- The accounts are right on every run without strangers. -/
theorem Reaches.accounted
    (hrun : Reaches (Undisturbed moves (Audible w₀.host)) (w₀.launched request plan) w) :
    Accounted w₀.host request.cwd w :=
  hrun.invariant (Accounted.launched w₀ hle request plan) fun h ha =>
    h.after (ha.mono (fun next => hmoves _ next h.created_le) fun _ => id)

/-- **When strangers do not matter.** If there is no split to play, or if no stranger's events come
through, then a run with notifications is a run without strangers. -/
theorem Reaches.audible {heard : SessionId → Prop}
    (hstill : (∀ i ∈ plan.queue, i.isSplit = false) ∨
      ∀ w : Scene H, Grows w₀.host w.host → ∀ id ∈ sessions w.host, heard id →
        SessionHost.active w₀.host = some id ∨ id ∈ own w₀.host w.host)
    (hrun : Reaches (Undisturbed moves (Notified w₀.host heard)) (w₀.launched request plan) w) :
    Reaches (Undisturbed moves (Audible w₀.host)) (w₀.launched request plan) w := by
  refine hrun.mono fun {w a} hw ha => ha.mono (fun _ => id) fun id hid s hs hfin => ?_
  rcases hstill with hnone | hstill
  · have hall := hw.invariant (launched_finished request hnone) fun h ha => ha.finished h
    simp [hall s hs] at hfin
  · rcases hid with ⟨hmem, hown | hfirst | hheard⟩
    · exact .inr (.inr hown)
    · exact .inr (.inl hfirst)
    · exact .inr (hstill w (hw.accounted w₀ hle hmoves).grows id hmem hheard)

end Runs

/-- What the accounts say of the requests that are open. -/
theorem singleFlight_of_accounted {start : H} {cwd : String} {w : Scene H}
    (h : Accounted start cwd w) : w.SingleFlight start := by
  refine ⟨h.single, fun hresumes => ?_⟩
  obtain ⟨-, -, hdue, -⟩ := hresumes.exists_sequencer
  obtain ⟨s, -, -, hmet⟩ := h.due hdue
  exact hmet.le_length

/-! ### Strangers -/

/-- A launch of a plan with a split makes one request, and waits for its session. -/
theorem launched_waits (w₀ : Scene H) (request : LayoutRequest) {plan : Plan}
    (h : ¬ ∀ i ∈ plan.queue, i.isSplit = false) :
    (issued w₀.host (w₀.launched request plan).host).length = 1 ∧
      ∃ s, (w₀.launched request plan).driver.sequencer = some s ∧ s.phase = .awaitingSession ∧
        s.known = (SessionHost.active w₀.host).toList := by
  obtain ⟨⟨hknown, -⟩, -, ⟨-, hnone, -⟩ | ⟨hphase, m, p, -, hreq⟩⟩ := (w₀.driver.fresh plan
    request.cwd (SessionHost.active w₀.host)).run_answering w₀.host
  · exact absurd hnone h
  · refine ⟨?_, _, rfl, hphase, hknown⟩
    rw [launched, issued_append (List.prefix_refl _) hreq, issued_self]
    rfl

/-- **Hearing of a session.** A sequencer that waits hears of any session that is new to it, once
the driver is enabled and notified. -/
theorem Reaches.notified {moves : H → H → Prop} {heard : SessionId → Prop} {start : H}
    {w₁ w : Scene H} {s : Sequencer} {id : SessionId}
    (hrun : Reaches (Undisturbed moves (Notified start heard)) w₁ w)
    (hs : w.driver.sequencer = some s) (hphase : s.phase = .awaitingSession) (hid : id ∉ s.known)
    (hnotified : Notified start heard w id) :
    Reaches (Undisturbed moves (Notified start heard)) w₁
      ⟨⟨.standard, some { s with known := id :: s.known }, true⟩, w.host⟩ := by
  have hfin : s.isFinished = false := Sequencer.isFinished_of_waits hphase
  have hknows : s.knows id = false := by simpa [Sequencer.knows] using hid
  have hvalid : Settings.standard.validate = .ok () := by decide
  have henabled : w.after (.configure .standard) =
      ⟨{ w.driver with settings := .standard }, w.host⟩ := by
    rw [after, LayoutDriver.setSettings, hvalid]
  have hheard : (w.after (.configure .standard)).after (.event (.activated id)) =
      ⟨⟨.standard, some { s with known := id :: s.known }, true⟩, w.host⟩ := by
    rw [henabled]
    simp [after, LayoutDriver.handle, Settings.standard, HostEvent.alive?, LayoutDriver.observe, hs,
      hfin, hknows, Sequencer.observe]
  have hevent : (w.after (.configure .standard)).Undisturbed moves (Notified start heard)
      (.event (.activated id)) := undisturbed_event rfl (henabled ▸ hnotified)
  exact hheard ▸ (hrun.step (undisturbed_configure _)).step hevent

/-- **A stranger is enough.** A sequencer that waits is due to play on once the driver is enabled
and notified of any session that is new to the sequencer. -/
theorem Reaches.exists_resumes {moves : H → H → Prop} {heard : SessionId → Prop} {start : H}
    {w₁ w : Scene H} {s : Sequencer} {id : SessionId}
    (hrun : Reaches (Undisturbed moves (Notified start heard)) w₁ w)
    (hs : w.driver.sequencer = some s) (hphase : s.phase = .awaitingSession) (hid : id ∉ s.known)
    (hmem : id ∈ sessions w.host) (hheard : heard id) :
    ∃ w', Reaches (Undisturbed moves (Notified start heard)) w₁ w' ∧ w'.host = w.host ∧
      w'.Resumes := by
  refine ⟨_, hrun.notified hs hphase hid ⟨hmem, .inr (.inr hheard)⟩, rfl, ?_⟩
  simp [Resumes, LayoutDriver.runScheduled, Sequencer.resume, hphase]

end Scene

/-- **One request at a time, exactly if there are no strangers.** Let a layout be launched on a host
without open requests. Then, whatever happens short of another launch, and in whatever order, no
more than one of its requests is open, and none when it is played on; provided that the layout has
no split, or that of the sessions there were before, the driver is told of none but the one that had
the focus. Without that, there is a host, and a run on it, where a layout is played on before the
session it asked for is there.

**Proof sketch.** On a run without strangers the accounts are right. Conversely, if a stranger's
events come through, then one of them, directly after the launch, makes a resumption due while the
first request is open. -/
theorem singleFlight_iff_no_strangers {driver : LayoutDriver} {request : LayoutRequest}
    {plan : Plan} (hbuild : Plan.build request.config driver.settings.defaultEntry = .ok plan)
    (before : List SessionId) (active : Option SessionId) (heard : SessionId → Prop) :
    (∀ (H : Type) [AnsweringHost H] (host : H) (a : Happening H) (w : Scene H),
      sessions host = before → SessionHost.active host = active →
      (created host).length = (requests host).length →
      Scene.Launches ⟨driver, host⟩ request plan a →
      Scene.Reaches (Scene.Undisturbed Answers (Scene.Notified host heard))
        (Scene.after ⟨driver, host⟩ a) w → w.SingleFlight host) ↔
    (∀ i ∈ plan.queue, i.isSplit = false) ∨ ∀ id ∈ before, heard id → active = some id := by
  constructor
  · intro hall
    by_contra hcon
    obtain ⟨hsplit, id, hmem, hheard, hne⟩ :
        (¬ ∀ i ∈ plan.queue, i.isSplit = false) ∧ ∃ id ∈ before, heard id ∧ active ≠ some id := by
      grind
    let host : RosterHost := ⟨active, before, [], []⟩
    obtain ⟨hissued, s, hs, hphase, hknown⟩ :=
      Scene.launched_waits ⟨driver, host⟩ request hsplit
    have hcreated : created (Scene.launched ⟨driver, host⟩ request plan).host = [] :=
      RosterHost.created_run _ host
    have hthere : id ∈ sessions (Scene.launched ⟨driver, host⟩ request plan).host :=
      (Sequencer.run_answering _ host).2.1.sessions (List.mem_append_left _ hmem)
    have hnew : id ∉ s.known := by
      rw [hknown, Option.mem_toList]
      exact hne
    have hrefl : Scene.Reaches (Scene.Undisturbed Answers (Scene.Notified host heard))
      (Scene.launched ⟨driver, host⟩ request plan) (Scene.launched ⟨driver, host⟩ request plan) :=
      .refl
    obtain ⟨w, hrun, hhost, hresumes⟩ := hrefl.exists_resumes hs hphase hnew hthere hheard
    have hlaunch : Scene.Launches ⟨driver, host⟩ request plan (.start request) := .start hbuild
    have hflight := (hall RosterHost host _ w (List.append_nil _) rfl rfl hlaunch
      (hlaunch.after_eq ▸ hrun)).2 hresumes
    rw [hhost, hissued, own, hcreated] at hflight
    simp at hflight
  · intro hcond H _ host a w hbefore hactive hlen hlaunch hrun
    rw [hlaunch.after_eq] at hrun
    have hstill : (∀ i ∈ plan.queue, i.isSplit = false) ∨
        ∀ w : Scene H, Grows host w.host → ∀ id ∈ sessions w.host, heard id →
          SessionHost.active host = some id ∨ id ∈ own host w.host := by
      refine hcond.imp_right fun hcond w hgrows id hid hheard => ?_
      rcases hgrows.mem_sessions hlen hid with hold | hown
      · exact .inl (hactive ▸ hcond id (hbefore ▸ hold) hheard)
      · exact .inr hown
    have haudible := hrun.audible ⟨driver, host⟩ hlen.le (fun _ _ _ h => h) hstill
    have hacc := haudible.accounted ⟨driver, host⟩ hlen.le fun _ _ _ h => h
    exact Scene.singleFlight_of_accounted hacc

/-- A request for three tabs. -/
def threeTabs : LayoutRequest :=
  ⟨⟨.group [.command "a", .command "b", .command "c"], some "tab"⟩, "/work"⟩

/-- The plan for three tabs. -/
def threeTabsPlan : Plan :=
  ⟨.tab, ⟨[⟨"a", 0, none⟩, ⟨"b", 1, none⟩, ⟨"c", 2, none⟩]⟩,
    [.jump 0, .cmd 0, .split .tab 1, .cmd 1, .split .tab 2, .cmd 2, .jump 0]⟩

/-- The plan for three tabs is that of the request. -/
theorem build_threeTabs :
    Plan.build threeTabs.config Settings.standard.defaultEntry = .ok threeTabsPlan := by
  rfl

/-- On a host with a single session, three tabs are opened one at a time. -/
theorem singleFlight_alone :
    Plan.build threeTabs.config Settings.standard.defaultEntry = .ok threeTabsPlan ∧
      ∀ (H : Type) [AnsweringHost H] (host : H) (a : Happening H) (w : Scene H),
        sessions host = [⟨"s0"⟩] → SessionHost.active host = some ⟨"s0"⟩ →
        (created host).length = (requests host).length →
        Scene.Launches ⟨.new .standard, host⟩ threeTabs threeTabsPlan a →
        Scene.Reaches (Scene.Undisturbed Answers (Scene.Notified host fun _ => True))
          (Scene.after ⟨.new .standard, host⟩ a) w → w.SingleFlight host := by
  let driver : LayoutDriver := .new .standard
  have hbuild : Plan.build threeTabs.config driver.settings.defaultEntry = .ok threeTabsPlan :=
    build_threeTabs
  refine ⟨hbuild, (singleFlight_iff_no_strangers hbuild [⟨"s0"⟩] (some ⟨"s0"⟩) fun _ => True).2 ?_⟩
  exact .inr fun id hid _ => by rw [List.mem_singleton.1 hid]

/-- With a second session on the host, an event of that session lets the layout ask for its third
tab while the second is still to come. -/
theorem stranger_opens_second_flight :
    let start : RosterHost := ⟨some ⟨"s0"⟩, [⟨"s0"⟩, ⟨"other"⟩], [], []⟩
    let w₁ := Scene.after ⟨.new .standard, start⟩ (.start threeTabs)
    let w := (w₁.after (.event (.titleChanged ⟨"other"⟩ "zsh"))).after .turn
    Scene.Launches ⟨.new .standard, start⟩ threeTabs threeTabsPlan (.start threeTabs) ∧
      Scene.Reaches (Scene.Undisturbed Answers (Scene.Notified start fun _ => True)) w₁ w ∧
      (issued start w.host).length = 2 ∧ own start w.host = [] ∧ ¬ w.SingleFlight start := by
  intro start w₁ w
  have hissued : (issued start w.host).length = 2 := by decide
  have hown : own start w.host = [] := by decide
  refine ⟨.start build_threeTabs, .step (.step .refl ?_) ?_, hissued, hown, fun h => ?_⟩
  · exact Scene.undisturbed_event rfl ⟨by decide, .inr (.inr trivial)⟩
  · exact Scene.undisturbed_turn
  · have hflight := h.1
    rw [hissued, hown] at hflight
    simp at hflight

end PaneLayout
