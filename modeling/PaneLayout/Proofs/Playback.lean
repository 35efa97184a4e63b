import PaneLayout.Proofs.Seating
import Mathlib.Data.List.Forall2

set_option autoImplicit false

/-!
# Playback on a cooperative host

From outside, a layout that is played is a list of host calls. On a cooperative host that has a
session with the focus, and whose driver hears of no stranger, this list is, at every moment, the
translation of the instructions played so far: each of them makes exactly one call, and the calls
about one pane all go to one session.

## Main definitions

* `PaneLayout.Plan.seat` — the assignment of sessions to panes: the first session shows pane `0`,
  and the session for the `j`-th request the pane of the `j`-th split.
* `PaneLayout.Instruction.translate` — the call that an instruction stands for, under an assignment.
* `PaneLayout.Logged` — the log since the start is the translation of the instructions played.
* `PaneLayout.Scene.Expected` — the sessions that may be announced: those heard of before, and the
  one that the sequencer waits for, once it is there.

## Main results

* `PaneLayout.Plan.seat_injective` — no session shows two panes.
* `PaneLayout.Seated.call?_eq_translate` — an instruction that is taken up makes the call it stands
  for.
* `PaneLayout.playback_on_cooperative_host` — the log is the translation, on every run.
-/

namespace PaneLayout

open LoggedHost AnsweringHost CooperativeHost

/-! ### The assignment -/

/-- **Seats as an assignment.** Pane `0` goes to the first session, and the pane of each split to
the session that answers its request, if it is there yet. -/
def Plan.seat (plan : Plan) (first : SessionId) (own : List SessionId) (p : Nat) :
    Option SessionId :=
  (first :: own)[(0 :: splitPanes plan.queue).idxOf p]?

namespace Plan

variable {plan : Plan} {first id : SessionId} {ids own : List SessionId} {p q : Nat}

/-- Pane `0` goes to the first session. -/
@[simp] theorem seat_zero (plan : Plan) (first : SessionId) (ids : List SessionId) :
    plan.seat first ids 0 = some first := by
  simp [seat]

/-- The pane of the `j`-th split goes to the `j`-th of the other sessions. -/
theorem seat_split (hplan : plan.Playable) {j : Nat} (hp : (splitPanes plan.queue)[j]? = some p) :
    plan.seat first ids p = ids[j]? := by
  obtain ⟨hj, hget⟩ := List.getElem?_eq_some_iff.1 hp
  have hidx := hplan.nodup_panes.idxOf_getElem (j + 1) (by simpa using hj)
  rw [List.getElem_cons_succ, hget] at hidx
  rw [seat, hidx, List.getElem?_cons_succ]

/-- Sessions that come in later take no seat away. -/
theorem seat_mono (h : plan.seat first ids p = some id) (hids : ids <+: own) :
    plan.seat first own p = some id := by
  obtain ⟨more, rfl⟩ := hids
  rw [seat, ← List.cons_append, List.getElem?_append_left (List.getElem?_eq_some_iff.1 h).1]
  exact h

/-- **No session shows two panes**, if the sessions are all different and there is a pane for each
of them. -/
theorem seat_injective (hnodup : (first :: ids).Nodup)
    (hlen : ids.length ≤ (splitPanes plan.queue).length) (hp : plan.seat first ids p = some id)
    (hq : plan.seat first ids q = some id) : p = q := by
  obtain ⟨hplt, hpget⟩ := List.getElem?_eq_some_iff.1 hp
  obtain ⟨hqlt, hqget⟩ := List.getElem?_eq_some_iff.1 hq
  have hidx := hnodup.getElem_inj_iff.1 (hpget.trans hqget.symm)
  have hmem : p ∈ 0 :: splitPanes plan.queue := by
    rw [← List.idxOf_lt_length_iff]
    simp only [List.length_cons] at hplt ⊢
    omega
  exact (List.idxOf_inj hmem).1 hidx

end Plan

/-! ### The translation -/

/-- **Translation.** A split stands for a request, placed as its mode says; a command for typing it,
with a leading space if it is to be kept out of the shell history, into the session that shows its
pane; a jump for focusing that session. -/
def Instruction.translate (plan : Plan) (cwd : String) (hide : Bool)
    (seat : Nat → Option SessionId) : Instruction → Option HostCall
  | .split m _ => some (.request ⟨cwd, m.splitHint⟩)
  | .jump p => (seat p).map .focus
  | .cmd p => (seat p).bind fun id => (plan.panes.get? p).map fun pane =>
    .send id ((if hide then " " else "") ++ pane.command ++ "\n")

/-- A translation stays the same when more panes have seats. -/
theorem Instruction.translate_mono {plan : Plan} {cwd : String} {hide : Bool}
    {seat seat' : Nat → Option SessionId}
    (h : ∀ p id, seat p = some id → seat' p = some id) {i : Instruction} {call : HostCall}
    (hi : i.translate plan cwd hide seat = some call) :
    i.translate plan cwd hide seat' = some call := by
  cases i with
  | split m p => exact hi
  | jump p =>
    obtain ⟨id, hid, hcall⟩ := Option.map_eq_some_iff.1 hi
    rw [translate, h p id hid, Option.map_some, hcall]
  | cmd p =>
    rw [translate, Option.bind_eq_some_iff] at hi ⊢
    obtain ⟨id, hid, hrest⟩ := hi
    exact ⟨id, h p id hid, hrest⟩

section Calls

variable {H : Type} [CooperativeHost H] {start host next : H} {plan : Plan} {first : SessionId}
  {done rest : List Instruction} {s : Sequencer} {i : Instruction}

/-- A session that may show a pane has its seat there. -/
theorem Seat.seat_eq (hplan : plan.Playable) (hfirst : SessionHost.active start = some first)
    {p : Nat} {id : SessionId} (h : Seat start plan host p id) :
    plan.seat first (own start host) p = some id := by
  rcases h with ⟨rfl, hactive | ⟨hnone, -⟩⟩ | ⟨j, hp, hid⟩
  · rw [Plan.seat_zero, ← hfirst, hactive]
  · rw [hfirst] at hnone
    exact absurd hnone (by simp)
  · rw [Plan.seat_split hplan hp, hid]

/-- **An instruction that is taken up makes the call it stands for.** -/
theorem Seated.call?_eq_translate (hplan : plan.Playable)
    (hfirst : SessionHost.active start = some first)
    (h : Seated start plan done s.panes s.lastPane (i :: rest) host)
    (hfocus : Focused start plan s.lastPane host) :
    ∃ call, (s.enter i rest (SessionHost.active host)).call? i = some call ∧
      i.translate plan s.cwd s.hideFromHistory (plan.seat first (own start host)) = some call := by
  obtain ⟨hcommands, hbound, hfilled⟩ := h.enter hplan hfocus
  obtain ⟨a, ha⟩ := h.place
  obtain ⟨a', hplay, -⟩ := hplan.play? h.queue_eq ha
  cases i with
  | split m p => exact ⟨_, Sequencer.call?_split _ m p, by rw [Sequencer.enter_cwd]; rfl⟩
  | jump p =>
    have hthere : p = 0 ∨ p ∈ splitPanes done := by
      simp only [Stage.play?, Option.ite_none_right_eq_some] at hplay
      exact (Plan.Playable.mem_panes ha p).1 hplay.1
    obtain ⟨id, hid⟩ | ⟨-, hnone⟩ := hfilled p hthere
    · refine ⟨.focus id, ?_, ?_⟩
      · rw [Sequencer.call?, hid, Option.map_some]
      · rw [Instruction.translate, (hbound p id hid).seat_eq hplan hfirst, Option.map_some]
    · rw [hfirst] at hnone
      exact absurd hnone (by simp)
  | cmd p =>
    have hlast : p = s.lastPane := by
      simp only [Stage.play?, Option.ite_none_right_eq_some] at hplay
      exact hplay.1
    have hthere : p = 0 ∨ p ∈ splitPanes done := hlast ▸ Plan.Playable.current_mem ha
    rcases hfocus with ⟨id, hactive, hseat⟩ | ⟨hnone, -⟩
    · obtain ⟨pane, planned, hpane, hplanned, hsame⟩ :=
        hplan.exists_pane h.queue_eq hthere (hcommands p)
      refine ⟨_, by rw [Sequencer.call?, hpane, Sequencer.enter_lastSession, hactive], ?_⟩
      rw [Instruction.translate, hlast, hseat.seat_eq hplan hfirst, ← hlast, hplanned,
        Sequencer.typed, Sequencer.enter_hideFromHistory, hsame]
      rfl
    · rw [hfirst] at hnone
      exact absurd hnone (by simp)

/-! ### The log -/

/-- **The log so far** is the translation of the instructions played, call by call. -/
def Logged (start : H) (plan : Plan) (cwd : String) (hide : Bool) (first : SessionId)
    (done : List Instruction) (host : H) : Prop :=
  ∃ log, calls host = calls start ++ log ∧ List.Forall₂ (fun i call =>
    i.translate plan cwd hide (plan.seat first (own start host)) = some call) done log

variable {cwd : String} {hide : Bool}

/-- The translation stays right while the host goes on by itself. -/
theorem Logged.mono (h : Logged start plan cwd hide first done host) (hgrows : Grows host next)
    (hcalls : calls next = calls host) : Logged start plan cwd hide first done next := by
  obtain ⟨log, hlog, htranslate⟩ := h
  refine ⟨log, hcalls.trans hlog, htranslate.imp fun i call hi => ?_⟩
  exact i.translate_mono (fun p id hid => Plan.seat_mono hid (hgrows.own start)) hi

/-- An instruction that is taken up adds its translation to the log. -/
theorem Logged.step (hplan : plan.Playable) (hfirst : SessionHost.active start = some first)
    (hseated : Seated start plan done s.panes s.lastPane (i :: rest) host)
    (hfocus : Focused start plan s.lastPane host) (hcwd : s.cwd = cwd)
    (hhide : s.hideFromHistory = hide) (h : Logged start plan cwd hide first done host) :
    Logged start plan cwd hide first (done ++ [i]) (s.hostAfter i rest host) := by
  obtain ⟨call, hcall, hi⟩ := hseated.call?_eq_translate hplan hfirst hfocus
  have hgrows : Grows host (s.hostAfter i rest host) := Grows.applyAll? _ host
  have hkeeps : ∀ p id, plan.seat first (own start host) p = some id →
      plan.seat first (own start (s.hostAfter i rest host)) p = some id :=
    fun p id hid => Plan.seat_mono hid (hgrows.own start)
  obtain ⟨log, hlog, htranslate⟩ := h
  refine ⟨log ++ [call], ?_, List.rel_append ?_ (.cons ?_ .nil)⟩
  · rw [Sequencer.hostAfter, calls_applyAll?, hcall, hlog, List.append_assoc]
    rfl
  · exact htranslate.imp fun i call hi => i.translate_mono hkeeps hi
  · exact i.translate_mono hkeeps (hcwd ▸ hhide ▸ hi)

/-- **A sequencer on record**: it keeps its settings, and the log is the translation of what it has
played of its queue. -/
def OnRecord (start : H) (plan : Plan) (cwd : String) (hide : Bool) (first : SessionId) (host : H)
    (s : Sequencer) : Prop :=
  s.cwd = cwd ∧ s.hideFromHistory = hide ∧
    ∃ done, plan.queue = done ++ s.queue ∧ Logged start plan cwd hide first done host

/-- If the session that has the focus is there, any session that has the focus is. -/
theorem active_mem_sessions (hfirst : SessionHost.active start = some first)
    (hthere : first ∈ sessions start) :
    ∀ id, SessionHost.active start = some id → id ∈ sessions start := by
  intro id hid
  rw [hfirst, Option.some.injEq] at hid
  exact hid ▸ hthere

/-- **A play leaves the sequencer on record.** -/
theorem OnRecord.run (hplan : plan.Playable) (hfirst : SessionHost.active start = some first)
    (hthere : first ∈ sessions start)
    (hseated : Seated start plan done s.panes s.lastPane s.queue host)
    (hfocus : Focused start plan s.lastPane host) (hcwd : s.cwd = cwd)
    (hhide : s.hideFromHistory = hide) (hlog : Logged start plan cwd hide first done host) :
    OnRecord start plan cwd hide first (s.run host).host (s.run host).sequencer := by
  refine Sequencer.run_induct
    (P := fun s queue host => s.cwd = cwd ∧ s.hideFromHistory = hide ∧
      ∃ done, Seated start plan done s.panes s.lastPane queue host ∧
        Focused start plan s.lastPane host ∧ Logged start plan cwd hide first done host)
    (Q := fun s host => OnRecord start plan cwd hide first host s) ?_ ?_ ?_
    ⟨hcwd, hhide, done, hseated, hfocus, hlog⟩
  · rintro s host ⟨hcwd, hhide, done, h, -, hlog⟩
    exact ⟨hcwd, hhide, done, h.queue_eq, hlog⟩
  · rintro s m p rest host ⟨hcwd, hhide, done, h, hfocus, hlog⟩
    exact ⟨by simpa using hcwd, by simpa using hhide, done ++ [.split m p],
      (h.step hplan hfocus).queue_eq, hlog.step hplan hfirst h hfocus hcwd hhide⟩
  · rintro s i rest host hi ⟨hcwd, hhide, done, h, hfocus, hlog⟩
    exact ⟨by simpa using hcwd, by simpa using hhide, done ++ [i], h.step hplan hfocus,
      h.focused hplan (active_mem_sessions hfirst hthere) hfocus hi,
      hlog.step hplan hfirst h hfocus hcwd hhide⟩

/-- A launch leaves the sequencer on record. -/
theorem OnRecord.launched (hplan : plan.Playable) (w : Scene H)
    (hfirst : SessionHost.active w.host = some first) (hthere : first ∈ sessions w.host)
    (hle : (created w.host).length ≤ (requests w.host).length) (request : LayoutRequest) :
    ∀ s, (w.launched request plan).driver.sequencer = some s →
      OnRecord w.host plan request.cwd w.driver.settings.hideFromHistory first
        (w.launched request plan).host s := by
  rintro _ ⟨⟩
  exact OnRecord.run hplan hfirst hthere (Seated.initial hplan hle) Seated.focused_initial rfl rfl
    ⟨[], (List.append_nil _).symm, .nil⟩

/-- **The sequencer stays on record** as long as no stranger is heard of. -/
theorem OnRecord.after (hplan : plan.Playable) (hfirst : SessionHost.active start = some first)
    (hthere : first ∈ sessions start) {w : Scene H} {a : Happening H}
    (hacc : Accounted start cwd w)
    (hplace : ∀ s, w.driver.sequencer = some s → InPlace start plan w.host s)
    (h : ∀ s, w.driver.sequencer = some s → OnRecord start plan cwd hide first w.host s)
    (ha : w.Undisturbed Serves (Scene.Audible start) a) :
    ∀ s, (w.after a).driver.sequencer = some s →
      OnRecord start plan cwd hide first (w.after a).host s := by
  refine ha.keeps (R := OnRecord start plan cwd hide first) (fun s id hs => hs) ?_ ?_ h
  · rintro s hs hdue hphase ⟨hcwd, hhide, done', hqueue, hlog⟩
    obtain ⟨done, hseated, hwaits⟩ := hplace s hs
    obtain ⟨hlast, hfront⟩ := hwaits hphase
    obtain ⟨s', -, -, hmet⟩ := hacc.due hdue
    obtain rfl : done = done' := List.append_cancel_right (hseated.queue_eq.symm.trans hqueue)
    exact OnRecord.run hplan hfirst hthere hseated (hseated.focused_of_met hlast hfront hmet) hcwd
      hhide hlog
  · rintro next s hnext ⟨hcwd, hhide, done, hqueue, hlog⟩
    exact ⟨hcwd, hhide, done, hqueue, hlog.mono (hnext.answers hacc.created_le).grows hnext.calls⟩

/-! ### Runs -/

/-- **Expected sessions.** The sequencer has heard of the session, or it waits, and the session is
the one that answers its last request. -/
def Scene.Expected (start : H) (w : Scene H) (id : SessionId) : Prop :=
  ∀ s, w.driver.sequencer = some s → id ∈ s.known ∨
    s.phase = .awaitingSession ∧ (own start w.host).length = (issued start w.host).length ∧
      (own start w.host).getLast? = some id

instance (start : H) (w : Scene H) (id : SessionId) : Decidable (w.Expected start id) :=
  match h : w.driver.sequencer with
  | none => .isTrue fun s hs => absurd (h.symm.trans hs) (by simp)
  | some s => decidable_of_iff (id ∈ s.known ∨ s.phase = .awaitingSession ∧
      (own start w.host).length = (issued start w.host).length ∧
        (own start w.host).getLast? = some id)
      ⟨fun hs t ht => Option.some.inj (h.symm.trans ht) ▸ hs, fun hall => hall s h⟩

/-- An expected session is no stranger. -/
theorem Scene.Expected.audible {w : Scene H} {id : SessionId} (h : w.Expected start id) :
    w.Audible start id := by
  intro s hs _
  rcases h s hs with hknown | ⟨-, -, hlast⟩
  · exact .inl hknown
  · exact .inr (.inr (List.mem_of_getLast? hlast))

/-- **On course**: there is a live sequencer, its accounts are right, and it is in place and on
record. -/
structure OnCourse (start : H) (plan : Plan) (cwd : String) (hide : Bool) (first : SessionId)
    (w : Scene H) : Prop where
  accounted : Accounted start cwd w
  inPlace : ∀ s, w.driver.sequencer = some s → InPlace start plan w.host s
  onRecord : ∀ s, w.driver.sequencer = some s → OnRecord start plan cwd hide first w.host s
  live : ∃ s, w.driver.sequencer = some s

/-- A launch sets the course. -/
theorem OnCourse.launched (hplan : plan.Playable) (w : Scene H)
    (hfirst : SessionHost.active w.host = some first) (hthere : first ∈ sessions w.host)
    (hle : (created w.host).length ≤ (requests w.host).length) (request : LayoutRequest) :
    OnCourse w.host plan request.cwd w.driver.settings.hideFromHistory first
      (w.launched request plan) where
  accounted := Accounted.launched w hle request plan
  inPlace := InPlace.launched hplan w (active_mem_sessions hfirst hthere) hle request
  onRecord := OnRecord.launched hplan w hfirst hthere hle request
  live := ⟨_, rfl⟩

/-- **The course is kept** as long as only expected sessions are heard of and nobody detaches the
sequencer. -/
theorem OnCourse.after (hplan : plan.Playable) (hfirst : SessionHost.active start = some first)
    (hthere : first ∈ sessions start) {w : Scene H} {a : Happening H}
    (h : OnCourse start plan cwd hide first w)
    (ha : w.Undisturbed Serves (Scene.Expected start) a) (hstays : a ≠ .detach) :
    OnCourse start plan cwd hide first (w.after a) := by
  obtain ⟨hacc, hplace, hrecord, s, hs⟩ := h
  have haudible : w.Undisturbed Serves (Scene.Audible start) a :=
    ha.mono (fun _ => id) fun _ => Scene.Expected.audible
  have hanswers : w.Undisturbed Answers (Scene.Audible start) a :=
    haudible.mono (fun _ hserves => hserves.answers hacc.created_le) fun _ => id
  refine ⟨hacc.after hanswers,
    InPlace.after hplan (active_mem_sessions hfirst hthere) hacc hplace haudible,
    OnRecord.after hplan hfirst hthere hacc hplace hrecord haudible, ?_⟩
  refine Scene.Undisturbed.induct (P := fun w => ∃ s, w.driver.sequencer = some s)
    ?settings ?hears ?rests ?resumes ?detach ?host ha
  case settings => exact fun _ => ⟨s, hs⟩
  case hears => exact fun _ _ _ _ _ _ => ⟨_, rfl⟩
  case rests => exact ⟨s, hs⟩
  case resumes => exact fun _ _ _ _ => ⟨_, rfl⟩
  case detach => exact fun hdetach => absurd hdetach hstays
  case host => exact fun _ _ => ⟨s, hs⟩

/-- **Faithful playback** of a plan that was started with the focus on the session `first`. What has
been played and what is left make up the queue. The calls made since the start are the translation
of what has been played, under an assignment of sessions to panes that gives no session to two of
them. Panes are bound as the assignment says, and at the end every pane has its session. -/
structure Playback (start : H) (plan : Plan) (cwd : String) (hide : Bool) (first : SessionId)
    (host : H) (s : Sequencer) (done : List Instruction) (log : List HostCall) : Prop where
  queue_eq : plan.queue = done ++ s.queue
  calls_eq : calls host = calls start ++ log
  translated : List.Forall₂ (fun i call =>
    i.translate plan cwd hide (plan.seat first (own start host)) = some call) done log
  injective : ∀ p q id, plan.seat first (own start host) p = some id →
    plan.seat first (own start host) q = some id → p = q
  bound : ∀ p id, s.panes.session? p = some id → plan.seat first (own start host) p = some id
  complete : s.isFinished = true → ∀ p ∈ 0 :: splitPanes plan.queue,
    ∃ id, plan.seat first (own start host) p = some id

/-- **The invariants make a playback.** The layout's own sessions have new names, so they differ
from each other and from the first; and a sequencer that has finished has met all of them. -/
theorem Playback.of_inPlace (hplan : plan.Playable)
    (hfirst : SessionHost.active start = some first) (hthere : first ∈ sessions start)
    (hopen : (created start).length = (requests start).length)
    (hstanding : Standing start host s) (hplace : InPlace start plan host s)
    (hrecord : OnRecord start plan cwd hide first host s) :
    ∃ done log, Playback start plan cwd hide first host s done log := by
  obtain ⟨done, hseated, -⟩ := hplace
  obtain ⟨-, -, done', hqueue, log, hlog, htranslate⟩ := hrecord
  obtain rfl : done = done' := List.append_cancel_right (hseated.queue_eq.symm.trans hqueue)
  have hnodup : (first :: own start host).Nodup :=
    List.nodup_cons.2 ⟨fun hown => hseated.since.notMem_of_own hopen.le hown hthere,
      hseated.since.nodup_own hopen.le⟩
  have hsplits : splitPanes plan.queue = splitPanes done ++ splitPanes s.queue := by
    rw [hqueue, splitPanes_append]
  have hlen : (own start host).length ≤ (splitPanes plan.queue).length := by
    rw [hsplits, List.length_append, hseated.count]
    exact Nat.le_add_right_of_le (own_le hseated.since.created_le start)
  refine ⟨done, log, hqueue, hlog, htranslate, fun p q id => Plan.seat_injective hnodup hlen,
    fun p id hid => (hseated.bound p id hid).seat_eq hplan hfirst, fun hfin p hp => ?_⟩
  have hmet : Met (own start host) s.known (issued start host).length := by
    rcases hstanding with ⟨-, hmet⟩ | ⟨n, hphase, -⟩
    · exact hmet
    · rw [Sequencer.phase_of_isFinished hfin] at hphase
      exact absurd hphase (by decide)
  have hnil : s.queue = [] := Sequencer.queue_of_isFinished hfin
  rcases List.mem_cons.1 hp with rfl | hp
  · exact ⟨first, Plan.seat_zero plan first _⟩
  · obtain ⟨j, hj, hget⟩ := List.mem_iff_getElem.1 hp
    have hcount := hseated.count
    rw [hsplits, hnil, splitPanes, splitPanes, List.filterMap_nil, List.append_nil] at hj
    obtain ⟨id, -, hid⟩ := hmet j (hcount ▸ hj)
    exact ⟨id, (Plan.seat_split hplan (List.getElem?_eq_some_iff.2 ⟨_, hget⟩)).trans hid⟩

end Calls

/-- **Playback on a cooperative host.** Let a layout be launched on a cooperative host that has a
session with the focus and no open request. Let anything happen afterwards but another launch or a
detachment, at any time and in any order, as long as the driver is told of no session but those it
has heard of and the one that it waits for, once that is there. Then there is a sequencer at every
moment, and it has played its plan faithfully so far.

**Proof sketch.** Expected sessions are no strangers, so the accounts stay right, and the sequencer
stays in place and on record (`OnCourse.after`); these three make a playback. -/
theorem playback_on_cooperative_host {H : Type} [CooperativeHost H] {driver : LayoutDriver}
    {request : LayoutRequest} {plan : Plan} {host : H} {first : SessionId} {a : Happening H}
    {w : Scene H} (hfirst : SessionHost.active host = some first)
    (hthere : first ∈ sessions host) (hopen : (created host).length = (requests host).length)
    (hlaunch : Scene.Launches ⟨driver, host⟩ request plan a)
    (hrun : Scene.Reaches
      (fun w a => w.Undisturbed Serves (Scene.Expected host) a ∧ a ≠ .detach)
      (Scene.after ⟨driver, host⟩ a) w) :
    ∃ s done log, w.driver.sequencer = some s ∧
      Playback host plan request.cwd driver.settings.hideFromHistory first w.host s done log := by
  have hplan : plan.Playable := Plan.playable_of_build hlaunch.build
  rw [hlaunch.after_eq] at hrun
  have hcourse : OnCourse host plan request.cwd driver.settings.hideFromHistory first w :=
    hrun.invariant (OnCourse.launched hplan ⟨driver, host⟩ hfirst hthere hopen.le request)
      fun h ha => h.after hplan hfirst hthere ha.1 ha.2
  obtain ⟨s, hs⟩ := hcourse.live
  obtain ⟨done, log, hplayback⟩ := Playback.of_inPlace hplan hfirst hthere hopen
    (hcourse.accounted.standing s hs) (hcourse.inPlace s hs) (hcourse.onRecord s hs)
  exact ⟨s, done, log, hs, hplayback⟩

/-- A request for a tab beside a tab that is split in two. -/
def nestedTabs : LayoutRequest :=
  ⟨⟨.group [.group [.command "a", .command "b"], .command "c"], some "tab"⟩, "/work"⟩

/-- The plan for the nested tabs. -/
def nestedTabsPlan : Plan :=
  ⟨.tab, ⟨[⟨"a", 0, none⟩, ⟨"b", 1, none⟩, ⟨"c", 2, none⟩]⟩,
    [.jump 0, .cmd 0, .split .tab 2, .cmd 2, .jump 0, .split .horizontal 1, .cmd 1, .jump 0,
      .jump 0]⟩

/-- The plan for the nested tabs is that of the request. -/
theorem build_nestedTabs :
    Plan.build nestedTabs.config Settings.standard.defaultEntry = .ok nestedTabsPlan := by
  rfl

/-- The nested tabs are played back to the end, if each session is announced once it is there. -/
theorem playback_of_nestedTabs :
    let start : RosterHost := ⟨some ⟨"s0"⟩, [⟨"s0"⟩], [], []⟩
    let w₁ := Scene.after ⟨.new .standard, start⟩ (.start nestedTabs)
    let w₂ := ((w₁.after (.host (w₁.host.create ⟨"s1"⟩))).after (.event (.activated ⟨"s1"⟩))).after
      .turn
    let w₃ := w₂.after (.event (.titleChanged ⟨"s1"⟩ "zsh"))
    let w := ((w₃.after (.host (w₃.host.create ⟨"s2"⟩))).after (.event (.activated ⟨"s2"⟩))).after
      .turn
    (SessionHost.active start = some ⟨"s0"⟩ ∧ ⟨"s0"⟩ ∈ sessions start ∧
      (created start).length = (requests start).length ∧
      Scene.Launches ⟨.new .standard, start⟩ nestedTabs nestedTabsPlan (.start nestedTabs) ∧
      Scene.Reaches (fun w a => w.Undisturbed Serves (Scene.Expected start) a ∧ a ≠ .detach)
        w₁ w) ∧
    (∃ s done log, w.driver.sequencer = some s ∧
      Playback start nestedTabsPlan nestedTabs.cwd Settings.standard.hideFromHistory ⟨"s0"⟩ w.host
        s done log) ∧
    w.driver.sequencer.map Sequencer.isFinished = some true := by
  intro start w₁ w₂ w₃ w
  have hfirst : SessionHost.active start = some ⟨"s0"⟩ := rfl
  have hthere : ⟨"s0"⟩ ∈ sessions start := by decide
  have hopen : (created start).length = (requests start).length := rfl
  have hlaunch : Scene.Launches ⟨.new .standard, start⟩ nestedTabs nestedTabsPlan
      (.start nestedTabs) := .start build_nestedTabs
  have hrun : Scene.Reaches
      (fun w a => w.Undisturbed Serves (Scene.Expected start) a ∧ a ≠ .detach) w₁ w := by
    refine .step (.step (.step (.step (.step (.step (.step .refl ⟨?_, by simp⟩) ⟨?_, by simp⟩)
      ⟨?_, by simp⟩) ⟨?_, by simp⟩) ⟨?_, by simp⟩) ⟨?_, by simp⟩) ⟨?_, by simp⟩
    · exact Scene.undisturbed_host (RosterHost.serves_create (by decide) (by decide))
    · exact Scene.undisturbed_event rfl (by decide +kernel)
    · exact Scene.undisturbed_turn
    · exact Scene.undisturbed_event rfl (by decide +kernel)
    · exact Scene.undisturbed_host (RosterHost.serves_create (by decide +kernel)
        (by decide +kernel))
    · exact Scene.undisturbed_event rfl (by decide +kernel)
    · exact Scene.undisturbed_turn
  exact ⟨⟨hfirst, hthere, hopen, hlaunch, hrun⟩,
    playback_on_cooperative_host hfirst hthere hopen hlaunch hrun, by decide +kernel⟩

end PaneLayout
