import PaneLayout.Proofs.SingleFlight
import PaneLayout.Proofs.Tree.Census
import PaneLayout.Proofs.Tree.Numbering

set_option autoImplicit false

/-!
# Which session shows which pane

Panes are bound by inference: a pane gets the session that has the focus when the instruction after
the one about the pane is taken up. On a cooperative host this is the right session, because the
queue of a plan always jumps to a pane that is there, and splits before anything else can move the
focus. This file says what the right session is, and proves that no pane is ever bound to another.

## Main definitions

* `PaneLayout.Seat` — the sessions that may show a pane: the session for the `j`-th request shows
  the pane of the `j`-th split.
* `PaneLayout.Seated` — the invariant of single instructions: panes are bound to what may show them,
  and all panes passed so far are bound.
* `PaneLayout.Focused` — the session with the focus may show the current pane.
* `PaneLayout.InPlace` — the invariant of the live sequencer between calls.

## Main results

* `PaneLayout.Stage.mem_panes_playAll?` — the panes that are there after some instructions.
* `PaneLayout.Seat.unique` — no session may show two panes.
* `PaneLayout.Seated.step`, `PaneLayout.Seated.focused` — what one instruction preserves.
* `PaneLayout.Scene.Reaches.inPlace` — the invariant holds on every run without strangers.

## Implementation notes

A host need not have a session with the focus when a layout is started. Then pane `0` stays unbound
for the time being, jumps to it do nothing, and any of the layout's own sessions may come to show
it. `Seat`, `Seated` and `Focused` allow for this.
-/

namespace PaneLayout

open LoggedHost AnsweringHost CooperativeHost

/-! ### The panes that a queue splits off -/

/-- An instruction that is no split splits off nothing. -/
theorem splitPanes_append_singleton {i : Instruction} (hi : i.isSplit = false)
    (queue : List Instruction) : splitPanes (queue ++ [i]) = splitPanes queue := by
  rw [splitPanes_append]
  cases i with
  | split m p => simp [Instruction.isSplit] at hi
  | jump p => exact List.append_nil _
  | cmd p => exact List.append_nil _

/-- A queue splits off nothing iff none of its instructions is a split. -/
theorem splitPanes_eq_nil_iff (queue : List Instruction) :
    splitPanes queue = [] ↔ ∀ i ∈ queue, i.isSplit = false := by
  rw [splitPanes, List.filterMap_eq_nil_iff]
  refine forall₂_congr fun i _ => ?_
  cases i <;> simp [Instruction.splitPane?, Instruction.isSplit]

namespace Stage

open Arrangement

/-- An instruction adds the pane it splits off, which was not there. -/
theorem mem_panes_play? {st st' : Stage} {i : Instruction} (h : st.play? i = some st') {p : Nat} :
    (p ∈ st'.arrangement.panes ↔ p ∈ st.arrangement.panes ∨ i.splitPane? = some p) ∧
      (i.splitPane? = some p → p ∉ st.arrangement.panes) := by
  cases i with
  | jump q =>
    simp only [play?, Option.ite_none_right_eq_some, Option.some.injEq] at h
    obtain ⟨-, rfl⟩ := h
    simp [Instruction.splitPane?]
  | cmd q =>
    simp only [play?, Option.ite_none_right_eq_some, Option.some.injEq] at h
    obtain ⟨-, rfl⟩ := h
    simp [Instruction.splitPane?]
  | split m q =>
    simp only [play?, Option.ite_none_right_eq_some, Option.some.injEq] at h
    obtain ⟨⟨hc, hq⟩, rfl⟩ := h
    refine ⟨?_, ?_⟩
    · simp only [mem_panes_graft, Arrangement.panes, Instruction.splitPane?, Option.some.injEq,
        List.mem_append, List.mem_singleton]
      grind
    · simp only [Instruction.splitPane?, Option.some.injEq]
      exact fun hqp => hqp ▸ hq

/-- **The panes that are there** after some instructions: those there were, and those split off. The
latter are all different, and new. -/
theorem mem_panes_playAll? {st st' : Stage} {queue : List Instruction}
    (h : st.playAll? queue = some st') :
    (∀ p, p ∈ st'.arrangement.panes ↔ p ∈ st.arrangement.panes ∨ p ∈ splitPanes queue) ∧
      (splitPanes queue).Nodup ∧ ∀ p ∈ splitPanes queue, p ∉ st.arrangement.panes := by
  induction queue generalizing st with
  | nil =>
    simp only [playAll?_nil, Option.some.injEq] at h
    subst h
    simp [splitPanes]
  | cons i queue ih =>
    rw [playAll?_cons, Option.bind_eq_some_iff] at h
    obtain ⟨mid, hi, hq⟩ := h
    obtain ⟨hmem, hnodup, hnew⟩ := ih hq
    have hstep := fun p => mem_panes_play? hi (p := p)
    cases hsplit : i.splitPane? with
    | none =>
      have heq : splitPanes (i :: queue) = splitPanes queue := by simp [splitPanes, hsplit]
      simp only [hsplit, reduceCtorEq, or_false, false_imp_iff, and_true] at hstep
      rw [heq]
      exact ⟨fun p => by rw [hmem, hstep], hnodup, fun p hp => (hstep p).not.1 (hnew p hp)⟩
    | some q =>
      have heq : splitPanes (i :: queue) = q :: splitPanes queue := by simp [splitPanes, hsplit]
      simp only [hsplit, Option.some.injEq] at hstep
      rw [heq]
      refine ⟨fun p => ?_, List.nodup_cons.2 ⟨fun hq => ?_, hnodup⟩, fun p hp => ?_⟩
      · rw [hmem, (hstep p).1, List.mem_cons, or_assoc, eq_comm]
      · exact hnew q hq ((hstep q).1.2 (.inr rfl))
      · rcases List.mem_cons.1 hp with rfl | hp
        · exact (hstep p).2 rfl
        · exact fun hold => hnew p hp ((hstep p).1.2 (.inl hold))

/-- After an instruction, its pane is the current one. -/
theorem current_play? {st st' : Stage} {i : Instruction} (h : st.play? i = some st') :
    st'.current = i.pane := by
  cases i with
  | jump p =>
    simp only [play?, Option.ite_none_right_eq_some, Option.some.injEq] at h
    rw [← h.2, Instruction.pane]
  | cmd p =>
    simp only [play?, Option.ite_none_right_eq_some, Option.some.injEq] at h
    rw [← h.2, Instruction.pane, h.1]
  | split m p =>
    simp only [play?, Option.ite_none_right_eq_some, Option.some.injEq] at h
    rw [← h.2, Instruction.pane]

/-- After some instructions, the pane of the last one is the current one. -/
theorem current_playAll?_append_singleton {st st' : Stage} {queue : List Instruction}
    {i : Instruction} (h : st.playAll? (queue ++ [i]) = some st') : st'.current = i.pane := by
  rw [playAll?_append, Option.bind_eq_some_iff] at h
  obtain ⟨mid, -, hi⟩ := h
  rw [playAll?_cons, Option.bind_eq_some_iff] at hi
  obtain ⟨last, hlast, hnil⟩ := hi
  rw [playAll?_nil, Option.some.injEq] at hnil
  exact hnil ▸ current_play? hlast

/-- The current pane is always there. -/
theorem current_mem_playAll? {st st' : Stage} {queue : List Instruction}
    (h : st.playAll? queue = some st') (hc : st.current ∈ st.arrangement.panes) :
    st'.current ∈ st'.arrangement.panes := by
  induction queue generalizing st with
  | nil =>
    simp only [playAll?_nil, Option.some.injEq] at h
    exact h ▸ hc
  | cons i queue ih =>
    rw [playAll?_cons, Option.bind_eq_some_iff] at h
    obtain ⟨mid, hi, hq⟩ := h
    refine ih hq ?_
    rw [current_play? hi]
    cases i with
    | split m p => exact (mem_panes_play? hi).1.2 (.inr rfl)
    | jump p =>
      simp only [play?, Option.ite_none_right_eq_some, Option.some.injEq] at hi
      exact hi.2 ▸ hi.1
    | cmd p =>
      simp only [play?, Option.ite_none_right_eq_some, Option.some.injEq] at hi
      rw [Instruction.pane, hi.1, ← hi.2]
      exact hc

end Stage

/-- **Playable plans.** The queue never gets stuck, its panes are in the registry, and no pane is
bound yet. -/
structure Plan.Playable (plan : Plan) : Prop where
  plays : ∃ st, (⟨.leaf 0, 0⟩ : Stage).playAll? plan.queue = some st ∧
    ∀ p ∈ st.arrangement.panes, p < plan.panes.size
  unbound : ∀ p, plan.panes.session? p = none

/-- Plans that could be built are playable. -/
theorem Plan.playable_of_build {config : LayoutConfig} {defaultEntry : String} {plan : Plan}
    (h : build config defaultEntry = .ok plan) : plan.Playable := by
  obtain ⟨a, hplay, hsize⟩ := playAll?_queue h
  obtain ⟨t, -, -, -, -, hunbound, -⟩ := exists_tree h
  exact ⟨⟨_, hplay, hsize⟩, hunbound⟩

namespace Plan.Playable

variable {plan : Plan} {done queue : List Instruction} {a : Arrangement} {c : Nat}

/-- The panes that are there after a part of the queue. -/
theorem mem_panes (hdone : (⟨.leaf 0, 0⟩ : Stage).playAll? done = some ⟨a, c⟩) (p : Nat) :
    p ∈ a.panes ↔ p = 0 ∨ p ∈ splitPanes done := by
  rw [(Stage.mem_panes_playAll? hdone).1, Arrangement.panes, List.mem_singleton]

/-- The current pane is one of them. -/
theorem current_mem (hdone : (⟨.leaf 0, 0⟩ : Stage).playAll? done = some ⟨a, c⟩) :
    c = 0 ∨ c ∈ splitPanes done :=
  (mem_panes hdone c).1 (Stage.current_mem_playAll? hdone (by simp [Arrangement.panes]))

/-- The panes that are there at any time are in the registry. -/
theorem lt_size (hplan : plan.Playable) (hqueue : plan.queue = done ++ queue) {p : Nat}
    (hp : p = 0 ∨ p ∈ splitPanes done) : p < plan.panes.size := by
  obtain ⟨st, hplay, hsize⟩ := hplan.plays
  refine hsize p ((Stage.mem_panes_playAll? hplay).1 p |>.2 ?_)
  rw [Arrangement.panes, List.mem_singleton, hqueue, splitPanes_append, List.mem_append]
  exact hp.imp_right .inl

/-- A pane that is there is in the registry, and runs its command in every registry with the same
commands. -/
theorem exists_pane (hplan : plan.Playable) (hqueue : plan.queue = done ++ queue) {p : Nat}
    (hp : p = 0 ∨ p ∈ splitPanes done) {panes : Registry}
    (hcommands : (panes.get? p).map Pane.command = (plan.panes.get? p).map Pane.command) :
    ∃ pane planned, panes.get? p = some pane ∧ plan.panes.get? p = some planned ∧
      pane.command = planned.command := by
  have hlt : p < plan.panes.panes.length := hplan.lt_size hqueue hp
  have hplanned : plan.panes.get? p = some plan.panes.panes[p] := List.getElem?_eq_getElem hlt
  rw [hplanned, Option.map_some, Option.map_eq_some_iff] at hcommands
  obtain ⟨pane, hpane, hsame⟩ := hcommands
  exact ⟨pane, _, hpane, hplanned, hsame⟩

/-- The next instruction of the queue can be played. -/
theorem play? {i : Instruction} (hplan : plan.Playable) (hqueue : plan.queue = done ++ i :: queue)
    (hdone : (⟨.leaf 0, 0⟩ : Stage).playAll? done = some ⟨a, c⟩) :
    ∃ a', (⟨a, c⟩ : Stage).play? i = some ⟨a', i.pane⟩ ∧
      (⟨.leaf 0, 0⟩ : Stage).playAll? (done ++ [i]) = some ⟨a', i.pane⟩ := by
  obtain ⟨st, hplay, -⟩ := hplan.plays
  rw [hqueue, Stage.playAll?_append, hdone, Option.bind_some, Stage.playAll?_cons,
    Option.bind_eq_some_iff] at hplay
  obtain ⟨⟨a', c'⟩, hi, -⟩ := hplay
  obtain rfl : c' = i.pane := Stage.current_play? hi
  refine ⟨a', hi, ?_⟩
  rw [Stage.playAll?_append, hdone, Option.bind_some, Stage.playAll?_cons, hi]
  rfl

/-- The panes that the queue splits off are all different, and pane `0` is not among them. -/
theorem nodup_panes (hplan : plan.Playable) : (0 :: splitPanes plan.queue).Nodup := by
  obtain ⟨st, hplay, -⟩ := hplan.plays
  obtain ⟨-, hnodup, hnew⟩ := Stage.mem_panes_playAll? hplay
  exact List.nodup_cons.2 ⟨fun hzero => hnew 0 hzero (by simp [Arrangement.panes]), hnodup⟩

/-- No split is about pane `0`. -/
theorem isSplit_of_pane_eq_zero (hplan : plan.Playable) {i : Instruction} (hi : i ∈ plan.queue)
    (hzero : i.pane = 0) : i.isSplit = false := by
  cases i with
  | jump p => rfl
  | cmd p => rfl
  | split m p =>
    obtain rfl : p = 0 := hzero
    have hmem : 0 ∈ splitPanes plan.queue := List.mem_filterMap.2 ⟨_, hi, rfl⟩
    exact absurd hmem (List.nodup_cons.1 hplan.nodup_panes).1

end Plan.Playable

/-! ### Seats -/

section Seats

variable {H : Type} [CooperativeHost H] {start host next : H} {plan : Plan} {p : Nat}
  {id : SessionId}

/-- **Seats.** The sessions that may show a pane. The session for the `j`-th request since the start
shows the pane of the `j`-th split, and the session that had the focus at the start shows pane `0`;
if none had the focus, any of the layout's own sessions may show it. -/
def Seat (start : H) (plan : Plan) (host : H) (p : Nat) (id : SessionId) : Prop :=
  (p = 0 ∧ (SessionHost.active start = some id ∨
    SessionHost.active start = none ∧ id ∈ own start host)) ∨
  ∃ j : Nat, (splitPanes plan.queue)[j]? = some p ∧ (own start host)[j]? = some id

/-- Seats are kept when more sessions are created. -/
theorem Seat.mono (h : Seat start plan host p id) (hgrows : Grows host next) :
    Seat start plan next p id := by
  have hown := hgrows.own start
  rcases h with ⟨hp, hfirst | ⟨hnone, hid⟩⟩ | ⟨j, hp, hid⟩
  · exact .inl ⟨hp, .inl hfirst⟩
  · exact .inl ⟨hp, .inr ⟨hnone, hown.subset hid⟩⟩
  · obtain ⟨more, hmore⟩ := hown
    refine .inr ⟨j, hp, ?_⟩
    rw [← hmore, List.getElem?_append_left (List.getElem?_eq_some_iff.1 hid).1, hid]

/-- Sessions with a seat had the focus at the start, or are the layout's own. -/
theorem Seat.cases (h : Seat start plan host p id) :
    (p = 0 ∧ SessionHost.active start = some id) ∨ id ∈ own start host := by
  rcases h with ⟨hp, hfirst | ⟨-, hid⟩⟩ | ⟨j, -, hid⟩
  · exact .inl ⟨hp, hfirst⟩
  · exact .inr hid
  · exact .inr (List.mem_of_getElem? hid)

/-- Sessions with a seat are there. -/
theorem Seat.mem_sessions (hactive : ∀ id, SessionHost.active start = some id → id ∈ sessions start)
    (hgrows : Grows start host) (h : Seat start plan host p id) : id ∈ sessions host := by
  rcases h.cases with ⟨-, hfirst⟩ | hown
  · exact hgrows.sessions (hactive id hfirst)
  · exact List.mem_append_right _ (List.mem_of_mem_drop hown)

/-- **A session has one seat.** If no session had the focus at the start, this leaves out pane `0`,
which any of the layout's own sessions may show. -/
theorem Seat.unique {q : Nat} (hsince : Since start host)
    (hle : (created start).length ≤ (requests start).length)
    (hactive : ∀ id, SessionHost.active start = some id → id ∈ sessions start)
    (hzero : SessionHost.active start = none → p ≠ 0 ∧ q ≠ 0)
    (hp : Seat start plan host p id) (hq : Seat start plan host q id) : p = q := by
  rcases hp with ⟨rfl, hfirst | ⟨hnone, -⟩⟩ | ⟨j, hpj, hj⟩
  · rcases hq with ⟨rfl, -⟩ | ⟨k, -, hk⟩
    · rfl
    · exact absurd (hactive id hfirst) (hsince.notMem_of_own hle (List.mem_of_getElem? hk))
  · exact absurd rfl (hzero hnone).1
  · rcases hq with ⟨rfl, hfirst | ⟨hnone, -⟩⟩ | ⟨k, hqk, hk⟩
    · exact absurd (hactive id hfirst) (hsince.notMem_of_own hle (List.mem_of_getElem? hj))
    · exact absurd rfl (hzero hnone).2
    · obtain rfl : j = k := (List.getElem?_inj (List.getElem?_eq_some_iff.1 hj).1
        (hsince.nodup_own hle)).1 (hj.trans hk.symm)
      exact Option.some.inj (hpj.symm.trans hqk)

/-- If no session had the focus at the start, whatever may show a pane may show pane `0`. -/
theorem Seat.zero (hnone : SessionHost.active start = none) (h : Seat start plan host p id) :
    Seat start plan host 0 id := by
  rcases h.cases with ⟨-, hfirst⟩ | hown
  · simp [hnone] at hfirst
  · exact .inl ⟨rfl, .inr ⟨hnone, hown⟩⟩

/-- **The focus is right**: the session that has it may show the current pane; or no session has had
it yet, and the current pane is pane `0`. -/
def Focused (start : H) (plan : Plan) (current : Nat) (host : H) : Prop :=
  (∃ id, SessionHost.active host = some id ∧ Seat start plan host current id) ∨
    (SessionHost.active start = none ∧ SessionHost.active host = none ∧ current = 0)

/-- **Panes are seated** when `done` has been played and `queue` is left: the splits of `done` made
the requests since the start, every binding is a seat, and every pane there is, but for the last
one, is bound. (Pane `0` need not be, if no session had the focus at the start.) -/
structure Seated (start : H) (plan : Plan) (done : List Instruction) (panes : Registry)
    (lastPane : Nat) (queue : List Instruction) (host : H) : Prop where
  since : Since start host
  queue_eq : plan.queue = done ++ queue
  place : ∃ a, (⟨.leaf 0, 0⟩ : Stage).playAll? done = some ⟨a, lastPane⟩
  count : (splitPanes done).length = (issued start host).length
  commands : ∀ p, (panes.get? p).map Pane.command = (plan.panes.get? p).map Pane.command
  bound : ∀ p id, panes.session? p = some id → Seat start plan host p id
  filled : ∀ p, p = 0 ∨ p ∈ splitPanes done → p ≠ lastPane →
    (∃ id, panes.session? p = some id) ∨ (p = 0 ∧ SessionHost.active start = none)

namespace Seated

variable {done rest queue : List Instruction} {s : Sequencer} {i : Instruction} {panes : Registry}
  {lastPane : Nat}

/-- Binding the last pane leaves it bound, since it is in the registry. -/
theorem exists_session?_bind_lastPane (hplan : plan.Playable)
    (h : Seated start plan done panes lastPane queue host) (id : SessionId) :
    ∃ x, (panes.bind lastPane id).session? lastPane = some x := by
  obtain ⟨a, ha⟩ := h.place
  obtain ⟨pane, -, hpane, -⟩ :=
    hplan.exists_pane h.queue_eq (Plan.Playable.current_mem ha) (h.commands lastPane)
  exact Registry.exists_session?_bind (Option.isSome_of_eq_some hpane)

/-- **Taking up an instruction binds the last pane**: it keeps the commands, makes no binding but to
seats, and leaves no pane unbound that is there. -/
theorem enter (hplan : plan.Playable)
    (h : Seated start plan done s.panes s.lastPane (i :: rest) host)
    (hfocus : Focused start plan s.lastPane host) :
    (∀ p, ((s.enter i rest (SessionHost.active host)).panes.get? p).map Pane.command =
      (plan.panes.get? p).map Pane.command) ∧
    (∀ p id, (s.enter i rest (SessionHost.active host)).panes.session? p = some id →
      Seat start plan host p id) ∧
    ∀ p, p = 0 ∨ p ∈ splitPanes done →
      (∃ id, (s.enter i rest (SessionHost.active host)).panes.session? p = some id) ∨
        (p = 0 ∧ SessionHost.active start = none) := by
  rcases hfocus with ⟨id, hactive, hseat⟩ | ⟨hnone, hactive, hlast⟩
  · rw [hactive]
    refine ⟨fun p => (Registry.command_bind ..).trans (h.commands p), fun p x hx => ?_, ?_⟩
    · rcases Registry.session?_bind_cases hx with hold | ⟨rfl, rfl⟩
      · exact h.bound p x hold
      · exact hseat
    · intro p hp
      by_cases hpl : p = s.lastPane
      · subst hpl
        exact .inl (h.exists_session?_bind_lastPane hplan id)
      · refine (h.filled p hp hpl).imp_left ?_
        rintro ⟨x, hx⟩
        exact ⟨x, Registry.session?_bind_of_some hx⟩
  · rw [hactive]
    refine ⟨h.commands, h.bound, fun p hp => ?_⟩
    by_cases hpl : p = s.lastPane
    · exact .inr ⟨hpl.trans hlast, hnone⟩
    · exact h.filled p hp hpl

/-- **One instruction keeps the panes seated.** -/
theorem step (hplan : plan.Playable)
    (h : Seated start plan done s.panes s.lastPane (i :: rest) host)
    (hfocus : Focused start plan s.lastPane host) :
    Seated start plan (done ++ [i]) (s.enter i rest (SessionHost.active host)).panes i.pane rest
      (s.hostAfter i rest host) := by
  obtain ⟨hcommands, hbound, hfilled⟩ := h.enter hplan hfocus
  have hgrows : Grows host (s.hostAfter i rest host) := Grows.applyAll? _ host
  obtain ⟨a, ha⟩ := h.place
  obtain ⟨a', -, hplace⟩ := hplan.play? h.queue_eq ha
  refine ⟨h.since.applyAll? _, by simp [h.queue_eq], ⟨a', hplace⟩, ?_, hcommands,
    fun p id hid => (hbound p id hid).mono hgrows, fun p hp hne => hfilled p ?_⟩
  · cases i with
    | split m p =>
      rw [issued_append h.since.grows.requests (Sequencer.requests_hostAfter_split s m p rest host),
        splitPanes_append, List.length_append, List.length_append, h.count]
      rfl
    | jump p =>
      rw [splitPanes_append_singleton rfl, h.count,
        issued_congr start (Sequencer.requests_hostAfter rfl s rest host)]
    | cmd p =>
      rw [splitPanes_append_singleton rfl, h.count,
        issued_congr start (Sequencer.requests_hostAfter rfl s rest host)]
  · rw [splitPanes_append, List.mem_append] at hp
    refine hp.imp_right fun hp => hp.resolve_right fun hnew => hne ?_
    cases i with
    | split m q => simpa [splitPanes, Instruction.splitPane?, Instruction.pane] using hnew
    | jump q => simp [splitPanes, Instruction.splitPane?] at hnew
    | cmd q => simp [splitPanes, Instruction.splitPane?] at hnew

/-- **Jumps and commands keep the focus right.** A jump finds its pane bound, since the pane is
there, and moves the focus to the session that shows it. -/
theorem focused (hplan : plan.Playable)
    (hactive : ∀ id, SessionHost.active start = some id → id ∈ sessions start)
    (h : Seated start plan done s.panes s.lastPane (i :: rest) host)
    (hfocus : Focused start plan s.lastPane host) (hi : i.isSplit = false) :
    Focused start plan i.pane (s.hostAfter i rest host) := by
  obtain ⟨-, hbound, hfilled⟩ := h.enter hplan hfocus
  obtain ⟨a, ha⟩ := h.place
  obtain ⟨a', hplay, -⟩ := hplan.play? h.queue_eq ha
  have hgrows : Grows host (s.hostAfter i rest host) := Grows.applyAll? _ host
  cases i with
  | split m p => simp [Instruction.isSplit] at hi
  | cmd p =>
    have hlast : p = s.lastPane := by
      simp only [Stage.play?, Option.ite_none_right_eq_some] at hplay
      exact hplay.1
    have hkeeps : SessionHost.active (s.hostAfter (.cmd p) rest host) =
        SessionHost.active host := by
      rw [Sequencer.hostAfter, Sequencer.call?]
      split
      · exact active_send host _ _
      · exact active_idle host
    rw [← hlast] at hfocus
    rw [Focused, hkeeps]
    refine hfocus.imp_left ?_
    rintro ⟨id, hid, hseat⟩
    exact ⟨id, hid, hseat.mono hgrows⟩
  | jump p =>
    have hthere : p = 0 ∨ p ∈ splitPanes done := by
      simp only [Stage.play?, Option.ite_none_right_eq_some] at hplay
      exact (Plan.Playable.mem_panes ha p).1 hplay.1
    cases hsession : (s.enter (.jump p) rest (SessionHost.active host)).panes.session? p with
    | some id =>
      have hseat := hbound p id hsession
      refine .inl ⟨id, ?_, hseat.mono hgrows⟩
      rw [Sequencer.hostAfter, Sequencer.call?, hsession]
      exact active_focus host id (hseat.mem_sessions hactive h.since.grows)
    | none =>
      have hstays : SessionHost.active (s.hostAfter (.jump p) rest host) =
          SessionHost.active host := by
        rw [Sequencer.hostAfter, Sequencer.call?, hsession]
        exact active_idle host
      obtain ⟨id, hid⟩ | ⟨rfl, hnone⟩ := hfilled p hthere
      · rw [hsession] at hid
        exact absurd hid (by simp)
      · rw [Focused, hstays]
        rcases hfocus with ⟨id, hid, hseat⟩ | ⟨-, hid, -⟩
        · exact .inl ⟨id, hid, (hseat.mono hgrows).zero hnone⟩
        · exact .inr ⟨hnone, hid, rfl⟩

/-- **Focus after a split.** When the session for the last split has been created, it is in front,
and it is the one that may show the pane of that split. -/
theorem focused_of_met {known : List SessionId}
    (h : Seated start plan done panes lastPane queue host)
    (hlast : (splitPanes done).getLast? = some lastPane) (hfront : Front host)
    (hmet : Met (own start host) known (issued start host).length) :
    Focused start plan lastPane host := by
  obtain ⟨n, hn⟩ : ∃ n, (splitPanes done).length = n + 1 := by
    refine Nat.exists_eq_add_one_of_ne_zero fun hzero => ?_
    rw [List.length_eq_zero_iff.1 hzero] at hlast
    exact absurd hlast (by simp)
  have hpane : (splitPanes done)[n]? = some lastPane := by
    rw [← hlast, List.getLast?_eq_getElem?, hn, Nat.add_sub_cancel]
  obtain ⟨id, -, hid⟩ := hmet n (by rw [← h.count, hn]; exact Nat.lt_succ_self n)
  refine .inl ⟨id, hfront ((requests start).length + n) id ?_ ?_, .inr ⟨n, ?_, hid⟩⟩
  · have hlen := h.count
    rw [hn, issued, List.length_drop] at hlen
    have := h.since.grows.requests.length_le
    omega
  · rw [← hid, own, List.getElem?_drop]
  · rw [h.queue_eq, splitPanes_append, List.getElem?_append_left (by omega), hpane]

/-- What the host does by itself keeps the panes seated. -/
theorem serves (h : Seated start plan done panes lastPane queue host) (hserves : Serves host next) :
    Seated start plan done panes lastPane queue next := by
  have hgrows := (hserves.answers h.since.created_le).grows
  have hissued : issued start next = issued start host := issued_congr start hserves.requests_eq
  exact ⟨h.since.serves hserves, h.queue_eq, h.place, hissued ▸ h.count, h.commands,
    fun p id hid => (h.bound p id hid).mono hgrows, h.filled⟩

/-- Before the first instruction, the panes are seated. -/
theorem initial (hplan : plan.Playable)
    (hle : (created start).length ≤ (requests start).length) :
    Seated start plan [] plan.panes 0 plan.queue start := by
  refine ⟨Since.refl hle, rfl, ⟨.leaf 0, rfl⟩, by simp [splitPanes], fun _ => rfl, ?_, ?_⟩
  · intro p id hid
    rw [hplan.unbound p] at hid
    exact absurd hid (by simp)
  · rintro p (rfl | hp) hne
    · exact absurd rfl hne
    · simp [splitPanes] at hp

/-- Before the first instruction, the focus is right. -/
theorem focused_initial : Focused start plan 0 start := by
  cases hactive : SessionHost.active start with
  | some id => exact .inl ⟨id, hactive, .inl ⟨rfl, .inl hactive⟩⟩
  | none => exact .inr ⟨hactive, hactive, rfl⟩

end Seated

/-! ### Plays and runs -/

/-- **A sequencer in place**: its panes are seated, and if it waits, then for the session that will
show the current pane, and this session will be in front. -/
def InPlace (start : H) (plan : Plan) (host : H) (s : Sequencer) : Prop :=
  ∃ done, Seated start plan done s.panes s.lastPane s.queue host ∧
    (s.phase = .awaitingSession → (splitPanes done).getLast? = some s.lastPane ∧ Front host)

/-- **A play leaves the sequencer in place.** -/
theorem InPlace.run (hplan : plan.Playable)
    (hactive : ∀ id, SessionHost.active start = some id → id ∈ sessions start) {s : Sequencer}
    {done : List Instruction} (h : Seated start plan done s.panes s.lastPane s.queue host)
    (hfocus : Focused start plan s.lastPane host) :
    InPlace start plan (s.run host).host (s.run host).sequencer := by
  refine Sequencer.run_induct
    (P := fun s queue host => ∃ done, Seated start plan done s.panes s.lastPane queue host ∧
      Focused start plan s.lastPane host)
    (Q := fun s host => InPlace start plan host s) ?_ ?_ ?_ ⟨done, h, hfocus⟩
  · rintro s host ⟨done, h, -⟩
    exact ⟨done, h, fun hphase => absurd hphase (by simp)⟩
  · rintro s m p rest host ⟨done, h, hfocus⟩
    refine ⟨done ++ [.split m p], h.step hplan hfocus, fun _ => ⟨?_, ?_⟩⟩
    · rw [splitPanes_append]
      exact List.getLast?_concat
    · rw [Sequencer.hostAfter, Sequencer.call?_split]
      exact front_request h.since.created_le _
  · rintro s i rest host hi ⟨done, h, hfocus⟩
    exact ⟨done ++ [i], h.step hplan hfocus, h.focused hplan hactive hfocus hi⟩

/-- A launch leaves the sequencer in place. -/
theorem InPlace.launched (hplan : plan.Playable) (w : Scene H)
    (hactive : ∀ id, SessionHost.active w.host = some id → id ∈ sessions w.host)
    (hle : (created w.host).length ≤ (requests w.host).length) (request : LayoutRequest) :
    ∀ s, (w.launched request plan).driver.sequencer = some s →
      InPlace w.host plan (w.launched request plan).host s := by
  rintro _ ⟨⟩
  exact InPlace.run hplan hactive (Seated.initial hplan hle) Seated.focused_initial

/-- **The sequencer stays in place** as long as no stranger is heard of.

**Proof sketch.** Only a resumption plays anything. When one is due, the session that the sequencer
waits for has been created (`Accounted.due`), so it is in front and the focus is right. -/
theorem InPlace.after (hplan : plan.Playable)
    (hactive : ∀ id, SessionHost.active start = some id → id ∈ sessions start) {cwd : String}
    {w : Scene H} {a : Happening H} (hacc : Accounted start cwd w)
    (h : ∀ s, w.driver.sequencer = some s → InPlace start plan w.host s)
    (ha : w.Undisturbed Serves (Scene.Audible start) a) :
    ∀ s, (w.after a).driver.sequencer = some s → InPlace start plan (w.after a).host s := by
  refine ha.keeps (R := InPlace start plan) (fun s id hs => hs) ?_ ?_ h
  · rintro s hs hdue hphase ⟨done, hseated, hwaits⟩
    obtain ⟨hlast, hfront⟩ := hwaits hphase
    obtain ⟨s', -, -, hmet⟩ := hacc.due hdue
    exact InPlace.run hplan hactive hseated (hseated.focused_of_met hlast hfront hmet)
  · rintro next s hnext ⟨done, hseated, hwaits⟩
    exact ⟨done, hseated.serves hnext, fun hphase => (hwaits hphase).imp_right hnext.front⟩

/-- **On every run without strangers,** the accounts are right and the sequencer is in place. -/
theorem Scene.Reaches.inPlace (w₀ : Scene H) (hplan : plan.Playable) {w : Scene H}
    {request : LayoutRequest}
    (hactive : ∀ id, SessionHost.active w₀.host = some id → id ∈ sessions w₀.host)
    (hle : (created w₀.host).length ≤ (requests w₀.host).length)
    (hrun : Reaches (Undisturbed Serves (Audible w₀.host)) (w₀.launched request plan) w) :
    Accounted w₀.host request.cwd w ∧
      ∀ s, w.driver.sequencer = some s → InPlace w₀.host plan w.host s :=
  hrun.invariant
    (P := fun w => Accounted w₀.host request.cwd w ∧
      ∀ s, w.driver.sequencer = some s → InPlace w₀.host plan w.host s)
    ⟨Accounted.launched w₀ hle request plan, InPlace.launched hplan w₀ hactive hle request⟩
    fun h ha => ⟨h.1.after (ha.mono (fun _ hnext => hnext.answers h.1.created_le) fun _ => id),
      InPlace.after hplan hactive h.1 h.2 ha⟩

end Seats

end PaneLayout
