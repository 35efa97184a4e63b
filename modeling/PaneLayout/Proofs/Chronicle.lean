import PaneLayout.Proofs.Execution

set_option autoImplicit false

/-!
# Bindings and calls, instruction by instruction

A pane is bound to a session at most once, and only while the instruction that follows one about
this pane is taken up. This file writes down a performance beat by beat, one for each instruction
executed, with the session that the host reports as active when the beat begins. What is bound and
what is called in a beat follows from this session and from what has been bound before.

## Main definitions

* `PaneLayout.Beat` — the execution of one instruction, seen from outside.
* `PaneLayout.Sequencer.beats`, `PaneLayout.Performance.chronicle` — the beats of a play and those
  of a performance.
* `PaneLayout.Beat.Follows` — what a beat binds and calls, given the beats before it.
* `PaneLayout.Registry.Keeps` — the same panes, with all that was bound still bound.
* `PaneLayout.RestlessHost` — a host whose focus moves between two instructions.

## Main results

* `PaneLayout.Sequencer.map_instruction_beats` — there is one beat for each instruction executed.
* `PaneLayout.Told.beat` — every beat follows from those before it.
* `PaneLayout.Performance.keeps_after` — no cue unbinds or rebinds a pane.
* `PaneLayout.bindings_written_once` — what holds of all performances of all plans.
* `PaneLayout.unreported_session_is_focused` — a jump to a pane that the plan came with bound.
-/

namespace PaneLayout

/-! ### Registries that only bind -/

namespace Registry

/-- The command and the number of every pane. -/
def labels (reg : Registry) : List (String × Nat) :=
  reg.panes.map fun pane => (pane.command, pane.index)

/-- **Keeping.** The panes are the same, and those that were bound are bound to the same sessions.
-/
structure Keeps (reg reg' : Registry) : Prop where
  labels_eq : reg'.labels = reg.labels
  session : ∀ i x, reg.session? i = some x → reg'.session? i = some x

variable {reg reg' reg'' : Registry}

theorem Keeps.refl (reg : Registry) : reg.Keeps reg := ⟨rfl, fun _ _ h => h⟩

theorem Keeps.trans (h : reg.Keeps reg') (h' : reg'.Keeps reg'') : reg.Keeps reg'' :=
  ⟨h'.labels_eq.trans h.labels_eq, fun i x hx => h'.session i x (h.session i x hx)⟩

/-- Binding keeps all that is there. -/
theorem keeps_bind (reg : Registry) (index : Nat) (id : SessionId) :
    reg.Keeps (reg.bind index id) := by
  refine ⟨?_, fun i x h => session?_bind_of_some h⟩
  apply List.ext_getElem?
  intro i
  simp only [labels, bind, List.getElem?_map, List.getElem?_modify]
  split
  · cases reg.panes[i]? <;> rfl
  · cases reg.panes[i]? <;> rfl

/-- **What binding binds.** The pane with the number gets the session, if it is there and has none.
-/
theorem session?_bind_eq_some_iff {index i : Nat} {id x : SessionId} :
    (reg.bind index id).session? i = some x ↔
      reg.session? i = some x ∨ (i = index ∧ reg.isUnbound i = true ∧ id = x) := by
  by_cases hi : index = i
  · subst hi
    rw [session?, session?, isUnbound, get?_bind, if_pos rfl]
    cases reg.get? index with
    | none => simp
    | some pane => cases hs : pane.session <;> simp [Pane.bind, hs]
  · rw [session?_bind_of_ne hi]
    simp [Ne.symm hi]

end Registry

/-! ### Beats -/

/-- The session that a call is about: the one written to or focused. -/
def HostCall.session? : HostCall → Option SessionId
  | .request _ => none
  | .send id _ => some id
  | .focus id => some id

/-- **Beats.** One instruction is executed: the session that the host reports as active when this
begins, the panes before and after it, and the calls that reach the host meanwhile. -/
structure Beat where
  instruction : Instruction
  active : Option SessionId
  before : Registry
  after : Registry
  calls : List HostCall
  deriving DecidableEq, Repr

namespace Beat

/-- The pane that the last of some beats was about, and pane `0` if there is none. -/
def lastPane (beats : List Beat) : Nat :=
  (beats.getLast?.map fun b => b.instruction.pane).getD 0

/-- The panes as the last of some beats has left them; `start` if there is none. -/
def panesAfter (start : Registry) (beats : List Beat) : Registry :=
  (beats.getLast?.map Beat.after).getD start

/-- A session has been reported if the host has named it as the active one in some beat. -/
def Reported (beats : List Beat) (x : SessionId) : Prop := ∃ b ∈ beats, b.active = some x

/-- **What a beat does,** when some beats came before it. It finds the panes as they were left. It
binds the pane that the last instruction was about, if that one has no session, to the active
session, and no other pane. A command is typed once into the active session; a jump focuses the
session that its pane is bound to then; a split makes one request. Nothing is called if there is no
active session or no such pane to run a command, or no session to jump to. Every session written to
or focused has been reported by now, unless it is the one that the pane jumped to was bound to from
the start. -/
structure Follows (start : Registry) (hide : Bool) (earlier : List Beat) (b : Beat) : Prop where
  before_eq : b.before = panesAfter start earlier
  bound_iff : ∀ i x, b.after.session? i = some x ↔ b.before.session? i = some x ∨
    (i = lastPane earlier ∧ b.before.isUnbound i = true ∧ b.active = some x)
  cmd : ∀ p, b.instruction = .cmd p → ∀ pane id, b.before.get? p = some pane →
    b.active = some id →
      b.calls = [.send id ((if hide then " " else "") ++ pane.command ++ "\n")]
  cmd_skipped : ∀ p, b.instruction = .cmd p → b.before.get? p = none ∨ b.active = none →
    b.calls = []
  jump : ∀ p, b.instruction = .jump p → ∀ id, b.after.session? p = some id →
    b.calls = [.focus id]
  jump_skipped : ∀ p, b.instruction = .jump p → b.after.session? p = none → b.calls = []
  split : ∀ m p, b.instruction = .split m p → ∃ r, b.calls = [.request r]
  reported : ∀ call ∈ b.calls, ∀ x, call.session? = some x → Reported (earlier ++ [b]) x ∨
    ∃ p, b.instruction = .jump p ∧ start.session? p = some x

end Beat

namespace Sequencer

variable {H : Type} [SessionHost H]

/-- The beat in which an instruction is taken up and makes its call. -/
def beat (s : Sequencer) (i : Instruction) (rest : List Instruction) (host : Recorded H) :
    Beat where
  instruction := i
  active := SessionHost.active host
  before := s.panes
  after := (s.enter i rest (SessionHost.active host)).panes
  calls := (s.hostAfter i rest host).calls.drop host.calls.length

/-- **The beats of a play,** up to the next split. -/
def beats (s : Sequencer) : List Instruction → Recorded H → List Beat
  | [], _ => []
  | i :: rest, host =>
    s.beat i rest host ::
      if i.isSplit then []
      else (s.enter i rest (SessionHost.active host)).beats rest (s.hostAfter i rest host)

/-- **One beat for each instruction** that the play says it executes. -/
theorem map_instruction_beats (s : Sequencer) (queue : List Instruction) (host : Recorded H) :
    (s.beats queue host).map Beat.instruction = executed (s.drain queue host).notices := by
  induction queue generalizing s host with
  | nil => rfl
  | cons i rest ih =>
    by_cases hi : i.isSplit = true
    · obtain ⟨m, p, rfl⟩ := Instruction.exists_split hi
      rw [executed_drain_split]
      rfl
    · have hnot : i.isSplit = false := by simpa using hi
      rw [executed_drain_cons hnot, ← ih, beats, if_neg hi]
      rfl

/-- The calls of a beat: the one of its instruction, if it makes one. -/
theorem calls_beat (s : Sequencer) (i : Instruction) (rest : List Instruction)
    (host : Recorded H) :
    (s.beat i rest host).calls =
      ((s.enter i rest (SessionHost.active host)).call? i).toList := by
  have hcalls := LoggedHost.calls_applyAll?
    ((s.enter i rest (SessionHost.active host)).call? i) host
  exact (congrArg (List.drop host.calls.length) hcalls).trans List.drop_left

/-- The record of the host grows by the calls of the beat. -/
theorem calls_hostAfter (s : Sequencer) (i : Instruction) (rest : List Instruction)
    (host : Recorded H) :
    (s.hostAfter i rest host).calls = host.calls ++ (s.beat i rest host).calls := by
  rw [calls_beat]
  exact LoggedHost.calls_applyAll? _ host

/-- Taking up an instruction keeps all that is bound. -/
theorem keeps_enter (s : Sequencer) (i : Instruction) (rest : List Instruction)
    (active : Option SessionId) : s.panes.Keeps (s.enter i rest active).panes := by
  cases active with
  | none => exact .refl _
  | some id => exact s.panes.keeps_bind s.lastPane id

/-- Taking up an instruction changes no command. -/
theorem command_enter (s : Sequencer) (i : Instruction) (rest : List Instruction)
    (active : Option SessionId) (p : Nat) :
    ((s.enter i rest active).panes.get? p).map Pane.command =
      (s.panes.get? p).map Pane.command := by
  cases active with
  | none => rfl
  | some id => exact s.panes.command_bind s.lastPane p id

/-- What is bound when an instruction has been taken up. -/
theorem session?_enter_eq_some_iff (s : Sequencer) (i : Instruction) (rest : List Instruction)
    (active : Option SessionId) (p : Nat) (x : SessionId) :
    (s.enter i rest active).panes.session? p = some x ↔ s.panes.session? p = some x ∨
      (p = s.lastPane ∧ s.panes.isUnbound p = true ∧ active = some x) := by
  cases active with
  | none => simp [enter, bindLast]
  | some id =>
    rw [Option.some.injEq]
    exact Registry.session?_bind_eq_some_iff

end Sequencer

/-! ### What the beats account for -/

/-- **Told so far.** The beats written down account for how the sequencer stands, for the calls that
have reached the host, and for every session that a pane has been bound to since the start; and each
beat follows from those before it. -/
structure Told (start : Registry) (hide : Bool) (beats : List Beat) (s : Sequencer)
    (calls : List HostCall) : Prop where
  lastPane_eq : s.lastPane = Beat.lastPane beats
  panes_eq : s.panes = Beat.panesAfter start beats
  hide_eq : s.hideFromHistory = hide
  calls_eq : calls = beats.flatMap Beat.calls
  bound : ∀ i x, s.panes.session? i = some x →
    Beat.Reported beats x ∨ start.session? i = some x
  follows : ∀ earlier b later, beats = earlier ++ b :: later → b.Follows start hide earlier

/-- What has been reported stays so. -/
theorem Beat.Reported.append {beats : List Beat} {x : SessionId} (h : Reported beats x)
    (more : List Beat) : Reported (beats ++ more) x := by
  obtain ⟨b, hb, hactive⟩ := h
  exact ⟨b, List.mem_append_left more hb, hactive⟩

/-- The active session of the last beat has been reported. -/
theorem Beat.reported_concat {b : Beat} {x : SessionId} (h : b.active = some x)
    (earlier : List Beat) : Reported (earlier ++ [b]) x :=
  ⟨b, List.mem_append_right earlier List.mem_cons_self, h⟩

namespace Told

variable {H : Type} [SessionHost H] {start : Registry} {hide : Bool} {beats : List Beat}
  {s : Sequencer} {host : Recorded H}

/-- A session that a pane is bound to in the next beat has been reported then, or the pane was bound
to it from the start. -/
theorem bound_next (h : Told start hide beats s host.calls) {i : Instruction}
    {rest : List Instruction} {p : Nat} {x : SessionId}
    (hx : (s.beat i rest host).after.session? p = some x) :
    Beat.Reported (beats ++ [s.beat i rest host]) x ∨ start.session? p = some x := by
  rcases (s.session?_enter_eq_some_iff i rest _ p x).1 hx with hbefore | ⟨-, -, hactive⟩
  · exact (h.bound p x hbefore).imp_left (·.append _)
  · exact .inl (Beat.reported_concat hactive beats)

/-- **The next beat follows** from those told so far. -/
theorem follows_next (h : Told start hide beats s host.calls) (i : Instruction)
    (rest : List Instruction) : (s.beat i rest host).Follows start hide beats := by
  have hcalls := s.calls_beat i rest host
  set entered := s.enter i rest (SessionHost.active host) with hentered
  have hcommand := s.command_enter i rest (SessionHost.active host)
  constructor
  case before_eq => exact h.panes_eq
  case bound_iff =>
    intro p x
    rw [← h.lastPane_eq]
    exact s.session?_enter_eq_some_iff i rest _ p x
  case cmd =>
    intro p hi pane id hpane hactive
    obtain rfl : i = .cmd p := hi
    have hsame := hcommand p
    rw [← hentered, show s.panes.get? p = some pane from hpane, Option.map_some,
      Option.map_eq_some_iff] at hsame
    obtain ⟨pane', hget, hcmd⟩ := hsame
    have hlast : entered.lastSession = some id := hactive
    rw [hcalls, Sequencer.call?, hget, hlast, Option.toList_some, Sequencer.typed, hcmd,
      hentered, Sequencer.enter_hideFromHistory, h.hide_eq]
  case cmd_skipped =>
    intro p hi hnone
    obtain rfl : i = .cmd p := hi
    rw [hcalls]
    rcases hnone with hpane | hactive
    · have hsame := hcommand p
      rw [← hentered, show s.panes.get? p = none from hpane, Option.map_none,
        Option.map_eq_none_iff] at hsame
      rw [Sequencer.call?, hsame]
      rfl
    · have hlast : entered.lastSession = none := hactive
      rw [Sequencer.call?, hlast]
      cases entered.panes.get? p <;> rfl
  case jump =>
    intro p hi id hid
    obtain rfl : i = .jump p := hi
    rw [hcalls, Sequencer.call?, show entered.panes.session? p = some id from hid]
    rfl
  case jump_skipped =>
    intro p hi hnone
    obtain rfl : i = .jump p := hi
    rw [hcalls, Sequencer.call?, show entered.panes.session? p = none from hnone]
    rfl
  case split =>
    intro m p hi
    obtain rfl : i = .split m p := hi
    exact ⟨_, hcalls⟩
  case reported =>
    intro call hcall x hx
    rw [hcalls, Option.mem_toList] at hcall
    cases i with
    | split m p =>
      obtain rfl := Option.some.inj hcall
      simp [HostCall.session?] at hx
    | jump p =>
      obtain ⟨id, hid, rfl⟩ := Option.map_eq_some_iff.1 hcall
      obtain rfl : id = x := Option.some.inj hx
      exact (h.bound_next hid).imp_right fun hstart => ⟨p, rfl, hstart⟩
    | cmd p =>
      have hlast : entered.lastSession = (s.beat (.cmd p) rest host).active := rfl
      rw [Sequencer.call?] at hcall
      split at hcall
      case h_1 pane id _ hid =>
        obtain rfl := Option.some.inj hcall
        obtain rfl : id = x := Option.some.inj hx
        exact .inl (Beat.reported_concat (hlast ▸ hid) beats)
      case h_2 => contradiction

/-- **One beat more** is told when an instruction is taken up. -/
theorem beat (h : Told start hide beats s host.calls) (i : Instruction)
    (rest : List Instruction) :
    Told start hide (beats ++ [s.beat i rest host])
      (s.enter i rest (SessionHost.active host)) (s.hostAfter i rest host).calls := by
  constructor
  case lastPane_eq =>
    rw [Beat.lastPane, List.getLast?_concat]
    rfl
  case panes_eq =>
    rw [Beat.panesAfter, List.getLast?_concat]
    rfl
  case hide_eq => rw [Sequencer.enter_hideFromHistory, h.hide_eq]
  case calls_eq =>
    rw [Sequencer.calls_hostAfter, h.calls_eq, List.flatMap_append, List.flatMap_singleton]
  case bound => exact fun p x hx => h.bound_next hx
  case follows =>
    intro earlier b later heq
    rcases List.eq_nil_or_concat later with rfl | ⟨others, last, rfl⟩
    · obtain ⟨rfl, hb⟩ := List.append_inj' heq rfl
      obtain rfl : s.beat i rest host = b := by simpa using hb
      exact h.follows_next i rest
    · rw [List.concat_eq_append, ← List.cons_append, ← List.append_assoc] at heq
      exact h.follows earlier b others (List.append_inj' heq rfl).1

/-- **A whole play is told** by its beats. -/
theorem drain (h : Told start hide beats s host.calls) (queue : List Instruction) :
    Told start hide (beats ++ s.beats queue host) (s.drain queue host).sequencer
      (s.drain queue host).host.calls := by
  induction queue generalizing beats s host with
  | nil =>
    rw [Sequencer.beats, List.append_nil]
    exact ⟨h.lastPane_eq, h.panes_eq, h.hide_eq, h.calls_eq, h.bound, h.follows⟩
  | cons i rest ih =>
    have hbeat := h.beat i rest
    by_cases hi : i.isSplit = true
    · obtain ⟨m, p, rfl⟩ := Instruction.exists_split hi
      exact ⟨hbeat.lastPane_eq, hbeat.panes_eq, hbeat.hide_eq, hbeat.calls_eq, hbeat.bound,
        hbeat.follows⟩
    · have hrest := ih hbeat
      rw [List.append_assoc, List.singleton_append] at hrest
      rw [Sequencer.beats, if_neg hi, Sequencer.drain_cons (by simpa using hi)]
      exact hrest

end Told

/-! ### Performances -/

namespace Performance

variable {H : Type} [SessionHost H]

/-- The beats of the call that a cue makes. -/
def beats (w : Performance H) : Cue H → List Beat
  | .advance =>
    if w.sequencer.phase = .awaitingSession then []
    else Sequencer.beats { w.sequencer with phase := .advancing } w.sequencer.queue w.host
  | .resume =>
    if w.sequencer.phase = .awaitingSession then
      Sequencer.beats { w.sequencer with phase := .advancing } w.sequencer.queue w.host
    else []
  | .observe _ => []
  | .host _ => []

/-- **The chronicle** of a performance that goes on with the given cues. -/
def chronicle (w : Performance H) : List (Cue H) → List Beat
  | [] => []
  | cue :: cues => w.beats cue ++ (w.after cue).chronicle cues

/-- **Recounted.** Some beats account for a performance, one for each instruction executed. -/
structure Recounted (start : Registry) (hide : Bool) (beats : List Beat) (w : Performance H) :
    Prop where
  told : Told start hide beats w.sequencer w.host.calls
  instructions_eq : beats.map Beat.instruction = w.instructions

section Recounted

variable {start : Registry} {hide : Bool} {told : List Beat} {w : Performance H}

/-- A play adds its beats, and is recounted with them. -/
theorem Recounted.run (h : Recounted start hide told w) (before : List Deed)
    (hbefore : before.filterMap Deed.instruction? = []) :
    Recounted start hide
      (told ++ Sequencer.beats { w.sequencer with phase := .advancing } w.sequencer.queue w.host)
      ⟨(w.sequencer.run w.host).sequencer, (w.sequencer.run w.host).host,
        w.deeds ++ before ++ (executed (w.sequencer.run w.host).notices).map Deed.executed⟩ := by
  have hbegun : Told start hide told { w.sequencer with phase := .advancing } w.host.calls :=
    ⟨h.told.lastPane_eq, h.told.panes_eq, h.told.hide_eq, h.told.calls_eq, h.told.bound,
      h.told.follows⟩
  constructor
  case told => exact hbegun.drain w.sequencer.queue
  case instructions_eq =>
    rw [List.map_append, h.instructions_eq, Sequencer.map_instruction_beats, instructions,
      instructions, List.filterMap_append, List.filterMap_append, hbefore, List.append_nil,
      filterMap_map_executed]
    rfl

/-- **Every cue is recounted** by its beats. -/
theorem Recounted.after (h : Recounted start hide told w) (cue : Cue H) :
    Recounted start hide (told ++ w.beats cue) (w.after cue) := by
  cases cue with
  | advance =>
    rw [beats]
    split
    case isTrue hwaits => rwa [after_advance_of_waits hwaits, List.append_nil]
    case isFalse hwaits =>
      rw [Performance.after, Sequencer.advance_of_not_waits hwaits]
      simpa using h.run [] rfl
  | resume =>
    rw [beats]
    split
    case isTrue hwaits =>
      rw [Performance.after, Sequencer.resume_of_waits hwaits]
      exact h.run [.resumed] rfl
    case isFalse hwaits => rwa [after_resume_of_not_waits hwaits, List.append_nil]
  | observe id =>
    have htold := h.told
    rw [beats, List.append_nil, Performance.after, Sequencer.observe]
    refine ⟨?_, h.instructions_eq⟩
    split
    · exact htold
    · exact ⟨htold.lastPane_eq, htold.panes_eq, htold.hide_eq, htold.calls_eq, htold.bound,
        htold.follows⟩
  | host next =>
    rw [beats, List.append_nil]
    exact ⟨h.told, h.instructions_eq⟩

/-- The chronicle recounts how the performance goes on. -/
theorem Recounted.foldl (h : Recounted start hide told w) (cues : List (Cue H)) :
    Recounted start hide (told ++ w.chronicle cues) (cues.foldl Performance.after w) := by
  induction cues generalizing told w with
  | nil => rwa [chronicle, List.append_nil]
  | cons cue cues ih =>
    rw [chronicle, ← List.append_assoc]
    exact ih (h.after cue)

end Recounted

/-- The chronicle of a plan recounts its performance. -/
theorem recounted_ofPlan (plan : Plan) (cwd : String) (hideFromHistory : Bool) (host : H)
    (cues : List (Cue H)) :
    Recounted plan.panes hideFromHistory
      (chronicle ⟨.ofPlan plan cwd hideFromHistory, ⟨host, []⟩, []⟩ cues)
      (ofPlan plan cwd hideFromHistory host cues) := by
  have hstart : Recounted plan.panes hideFromHistory []
      (⟨.ofPlan plan cwd hideFromHistory, ⟨host, []⟩, []⟩ : Performance H) := by
    refine ⟨⟨rfl, rfl, rfl, rfl, fun i x hx => .inr hx, ?_⟩, rfl⟩
    intro earlier b later heq
    simp at heq
  exact hstart.foldl cues

/-- A play keeps all that is bound. -/
theorem keeps_run (s : Sequencer) (host : H) : s.panes.Keeps (s.run host).sequencer.panes :=
  Sequencer.run_induct (P := fun t _ _ => s.panes.Keeps t.panes)
    (Q := fun t _ => s.panes.Keeps t.panes) (fun h => h)
    (fun {t m p rest _} h => h.trans (t.keeps_enter (.split m p) rest _))
    (fun {t i rest _} _ h => h.trans (t.keeps_enter i rest _)) (.refl _)

/-- **No cue unbinds or rebinds a pane.** -/
theorem keeps_after (w : Performance H) (cue : Cue H) :
    w.sequencer.panes.Keeps (w.after cue).sequencer.panes := by
  cases cue with
  | advance =>
    by_cases hwaits : w.sequencer.phase = .awaitingSession
    · rw [after_advance_of_waits hwaits]
      exact .refl _
    · rw [after, Sequencer.advance_of_not_waits hwaits]
      exact keeps_run w.sequencer w.host
  | resume =>
    by_cases hwaits : w.sequencer.phase = .awaitingSession
    · rw [after, Sequencer.resume_of_waits hwaits]
      exact keeps_run w.sequencer w.host
    · rw [after_resume_of_not_waits hwaits]
      exact .refl _
  | observe id =>
    rw [after, Sequencer.observe]
    split
    · exact .refl _
    · exact .refl _
  | host next => exact .refl _

/-- No row of cues unbinds or rebinds a pane. -/
theorem keeps_foldl (w : Performance H) (cues : List (Cue H)) :
    w.sequencer.panes.Keeps (cues.foldl after w).sequencer.panes := by
  induction cues generalizing w with
  | nil => exact .refl _
  | cons cue cues ih => exact (w.keeps_after cue).trans (ih (w.after cue))

end Performance

/-- **Bindings are written once, and calls follow them.** The plan may be made by hand, the
sequencer may be called in any order, and the host may do what it likes in its calls, between them
and between two instructions. The panes stay the same, with their commands and numbers, and a pane
that is bound stays bound to its session, however the performance goes on. There is one beat for
each instruction executed, and the beats make all the calls. Nothing is bound between beats, and
each beat does what `PaneLayout.Beat.Follows` says: it binds at most the pane that the last
instruction was about, to the session that is active when it begins, and then types into this
session, focuses the session bound to its pane, or makes a request. So no session is written to or
focused that has not been reported as active by then, unless a jump leads to a pane that the plan
came with already bound to it.

**Proof sketch.** Every cue keeps what is bound (`Performance.keeps_after`) and is recounted by its
beats (`Performance.Recounted.after`), because every beat follows from those before it
(`Told.beat`). -/
theorem bindings_written_once {H : Type} [SessionHost H] (plan : Plan) (cwd : String)
    (hideFromHistory : Bool) (host : H) (cues : List (Cue H)) :
    let w := Performance.ofPlan plan cwd hideFromHistory host cues
    let beats := Performance.chronicle ⟨.ofPlan plan cwd hideFromHistory, ⟨host, []⟩, []⟩ cues
    w.sequencer.panes.labels = plan.panes.labels ∧
    (∀ later i x, w.sequencer.panes.session? i = some x →
      (Performance.ofPlan plan cwd hideFromHistory host
        (cues ++ later)).sequencer.panes.session? i = some x) ∧
    beats.map Beat.instruction = w.instructions ∧
    beats.flatMap Beat.calls = w.host.calls ∧
    Beat.panesAfter plan.panes beats = w.sequencer.panes ∧
    (∀ earlier b later, beats = earlier ++ b :: later →
      b.Follows plan.panes hideFromHistory earlier) ∧
    ∀ earlier b later, beats = earlier ++ b :: later →
      ∀ call ∈ b.calls, ∀ x, call.session? = some x →
        (∃ a ∈ earlier ++ [b], a.active = some x) ∨
          ∃ p, b.instruction = .jump p ∧ plan.panes.session? p = some x := by
  intro w beats
  have hall := Performance.recounted_ofPlan plan cwd hideFromHistory host cues
  refine ⟨?_, ?_, hall.instructions_eq, hall.told.calls_eq.symm, hall.told.panes_eq.symm,
    hall.told.follows, ?_⟩
  · exact (Performance.keeps_foldl
      ⟨.ofPlan plan cwd hideFromHistory, ⟨host, []⟩, []⟩ cues).labels_eq
  · intro later i x hx
    rw [Performance.ofPlan, List.foldl_append]
    exact (Performance.keeps_foldl w later).session i x hx
  · exact fun earlier b later heq => (hall.told.follows earlier b later heq).reported

/-- **Restless hosts.** The first of some sessions has the focus, and loses it whenever an
instruction makes no call. -/
structure RestlessHost where
  sessions : List SessionId

instance : SessionHost RestlessHost where
  active host := host.sessions.head?
  request host _ := host
  send host _ _ := host
  focus host id := ⟨id :: host.sessions⟩
  idle host := ⟨host.sessions.tail⟩

/-- The focus moves while a jump finds no session, and again while a split is under way. The pane of
the jump is bound to the session that has the focus after it. The commands go to the sessions that
have the focus, and the second jump to the one that its pane was bound to at first. -/
theorem bindings_written_once_when_focus_moves :
    let plan : Plan := ⟨.tab, ⟨[⟨"vim", 0, none⟩, ⟨"top", 1, none⟩]⟩,
      [.jump 1, .cmd 0, .split .tab 1, .cmd 1, .jump 0, .cmd 0]⟩
    let cues : List (Cue RestlessHost) := [.advance, .host ⟨[⟨"late"⟩]⟩, .resume]
    let w := Performance.ofPlan plan "/" true ⟨[⟨"s0"⟩, ⟨"other"⟩]⟩ cues
    let beats := Performance.chronicle
      ⟨.ofPlan plan "/" true, ⟨⟨[⟨"s0"⟩, ⟨"other"⟩]⟩, []⟩, []⟩ cues
    beats.map Beat.active = [some ⟨"s0"⟩, some ⟨"other"⟩, some ⟨"other"⟩, some ⟨"late"⟩,
        some ⟨"late"⟩, some ⟨"s0"⟩] ∧
      w.host.calls = [.send ⟨"other"⟩ " vim\n", .request ⟨"/", none⟩, .send ⟨"late"⟩ " top\n",
        .focus ⟨"s0"⟩, .send ⟨"s0"⟩ " vim\n"] ∧
      w.sequencer.panes.session? 0 = some ⟨"s0"⟩ ∧
      w.sequencer.panes.session? 1 = some ⟨"other"⟩ ∧
      ∀ earlier b later, beats = earlier ++ b :: later →
        b.Follows plan.panes true earlier := by
  intro plan cues w beats
  obtain ⟨-, -, -, -, -, hfollows, -⟩ := bindings_written_once plan "/" true
    (⟨[⟨"s0"⟩, ⟨"other"⟩]⟩ : RestlessHost) cues
  exact ⟨by decide, by decide, by decide, by decide, hfollows⟩

/-- **A session that was never reported is focused.** The only pane of the plan has been bound
before the sequencer was made, and the host has no active session. The jump leads there. -/
theorem unreported_session_is_focused :
    let plan : Plan := ⟨.tab, (Registry.empty.allocate "vim").bind 0 ⟨"ghost"⟩, [.jump 0]⟩
    let host : QueuedHost := .new none false
    let w := Performance.ofPlan plan "/" false host [.advance]
    let beats := Performance.chronicle ⟨.ofPlan plan "/" false, ⟨host, []⟩, []⟩ [.advance]
    beats.flatMap Beat.calls = w.host.calls ∧ beats.map Beat.active = [none] ∧
      ¬ ∀ call ∈ w.host.calls, ∀ x, call.session? = some x → ∃ b ∈ beats, b.active = some x := by
  intro plan host w beats
  have hactive : ¬ ∃ b ∈ beats, b.active = some ⟨"ghost"⟩ := by decide
  have hcall : HostCall.focus ⟨"ghost"⟩ ∈ w.host.calls := by decide
  exact ⟨by decide, by decide, fun hall => hactive (hall _ hcall ⟨"ghost"⟩ rfl)⟩

end PaneLayout
