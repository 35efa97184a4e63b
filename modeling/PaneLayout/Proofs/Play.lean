import PaneLayout.Sequencer

set_option autoImplicit false

/-!
# Playing instructions one by one

A sequencer plays instructions until one of them asks for a session. This file cuts such a play
into its instructions, so that facts about whole plays follow from facts about one instruction.

## Main definitions

* `PaneLayout.HostCall.request?` — the request that a call makes, if it makes one.

## Main results

* `PaneLayout.Sequencer.run_induct` — what one instruction preserves, a play preserves.
* `PaneLayout.Sequencer.call?_split`, `PaneLayout.Sequencer.request?_of_call?` — splits make a
  request, and no other instruction does.
-/

namespace PaneLayout

/-- The request that a call makes, if it makes one. -/
def HostCall.request? : HostCall → Option SessionRequest
  | .request r => some r
  | .send _ _ => none
  | .focus _ => none

/-- An instruction that asks for a session is a split. -/
theorem Instruction.exists_split {i : Instruction} (h : i.isSplit = true) :
    ∃ m p, i = .split m p := by
  cases i with
  | split m p => exact ⟨m, p, rfl⟩
  | jump p => simp [isSplit] at h
  | cmd p => simp [isSplit] at h

/-! ### Binding -/

namespace Registry

variable {reg : Registry} {index i : Nat} {id x : SessionId}

/-- Binding changes no command. -/
theorem command_bind (reg : Registry) (index i : Nat) (id : SessionId) :
    ((reg.bind index id).get? i).map Pane.command = (reg.get? i).map Pane.command := by
  rw [get?_bind]
  split
  · rw [Option.map_map]
    rfl
  · rfl

/-- A pane that is bound stays bound to the same session. -/
theorem session?_bind_of_some (h : reg.session? i = some x) :
    (reg.bind index id).session? i = some x := by
  rw [session?, Option.bind_eq_some_iff] at h
  obtain ⟨pane, hget, hx⟩ := h
  rw [session?, get?_bind, hget]
  split <;> simp [Pane.bind, hx]

/-- Binding a pane leaves the others as they are. -/
theorem session?_bind_of_ne (h : index ≠ i) :
    (reg.bind index id).session? i = reg.session? i := by
  rw [session?, get?_bind, if_neg h, session?]

/-- A binding that is there was there before, or has been made just now. -/
theorem session?_bind_cases (h : (reg.bind index id).session? i = some x) :
    reg.session? i = some x ∨ (i = index ∧ x = id) := by
  rw [session?, get?_bind, Option.bind_eq_some_iff] at h
  obtain ⟨pane, hget, hx⟩ := h
  split at hget
  case isFalse => exact .inl (by rw [session?, hget, Option.bind_some, hx])
  case isTrue heq =>
    rw [Option.map_eq_some_iff] at hget
    obtain ⟨old, hold, rfl⟩ := hget
    cases hs : old.session with
    | some y =>
      have hyx : y = x := by simpa [Pane.bind, hs] using hx
      exact .inl (by rw [session?, hold, Option.bind_some, hs, hyx])
    | none =>
      have hidx : id = x := by simpa [Pane.bind, hs] using hx
      exact .inr ⟨heq.symm, hidx.symm⟩

/-- A pane that is there is bound after it has been bound. -/
theorem exists_session?_bind (h : (reg.get? index).isSome) :
    ∃ x, (reg.bind index id).session? index = some x := by
  obtain ⟨pane, hget⟩ := Option.isSome_iff_exists.1 h
  rw [session?, get?_bind, hget, if_pos rfl]
  cases hs : pane.session with
  | some y => exact ⟨y, by simp [Pane.bind, hs]⟩
  | none => exact ⟨id, by simp [Pane.bind, hs]⟩

end Registry

namespace Sequencer

/-! ### Taking up an instruction -/

section Enter

variable (s : Sequencer) (i : Instruction) (rest : List Instruction) (active : Option SessionId)

/-- The session that had the focus is remembered. -/
@[simp] theorem enter_lastSession : (s.enter i rest active).lastSession = active := rfl

/-- Taking up an instruction makes no session known. -/
@[simp] theorem enter_known : (s.enter i rest active).known = s.known := by
  cases active <;> rfl

/-- Taking up an instruction keeps the directory of new sessions. -/
@[simp] theorem enter_cwd : (s.enter i rest active).cwd = s.cwd := by
  cases active <;> rfl

/-- Taking up an instruction keeps the way commands are typed. -/
@[simp] theorem enter_hideFromHistory :
    (s.enter i rest active).hideFromHistory = s.hideFromHistory := by
  cases active <;> rfl

end Enter

/-- A split asks for a session in the directory of the sequencer, placed as its mode says. -/
@[simp] theorem call?_split (s : Sequencer) (m : Mode) (p : Nat) :
    s.call? (.split m p) = some (.request ⟨s.cwd, m.splitHint⟩) := rfl

/-- No other instruction asks for a session. -/
theorem request?_of_call? {s : Sequencer} {i : Instruction} {call : HostCall}
    (hi : i.isSplit = false) (h : s.call? i = some call) : call.request? = none := by
  cases i with
  | split m p => simp [Instruction.isSplit] at hi
  | jump p =>
    simp only [call?, Option.map_eq_some_iff] at h
    obtain ⟨id, -, rfl⟩ := h
    rfl
  | cmd p =>
    simp only [call?] at h
    split at h
    · simp only [Option.some.injEq] at h
      exact h ▸ rfl
    · simp at h

/-- A sequencer that has finished is idle. -/
theorem phase_of_isFinished {s : Sequencer} (h : s.isFinished = true) : s.phase = .idle := by
  simpa [isFinished] using (Bool.and_eq_true_iff.1 h).2

/-- A sequencer that has finished has nothing left. -/
theorem queue_of_isFinished {s : Sequencer} (h : s.isFinished = true) : s.queue = [] := by
  simpa [isFinished] using (Bool.and_eq_true_iff.1 h).1

/-- A sequencer that is idle with nothing left has finished. -/
theorem isFinished_of_idle {s : Sequencer} (hphase : s.phase = .idle) (hqueue : s.queue = []) :
    s.isFinished = true := by
  simp [isFinished, hphase, hqueue]

/-- A sequencer that waits has not finished. -/
theorem isFinished_of_waits {s : Sequencer} (h : s.phase = .awaitingSession) :
    s.isFinished = false := by
  simp [isFinished, h]

/-! ### Plays -/

section Play

variable {H : Type} [SessionHost H]

/-- The host after an instruction has been taken up and has made its call. -/
def hostAfter (s : Sequencer) (i : Instruction) (rest : List Instruction) (host : H) : H :=
  HostCall.applyAll? ((s.enter i rest (SessionHost.active host)).call? i) host

/-- **Induction on a play.** A property of the sequencer, the instructions left and the host that
every instruction but a split preserves, and that gives `Q` when the play stops at a split or at the
end, gives `Q` after the whole play. -/
theorem run_induct {P : Sequencer → List Instruction → H → Prop} {Q : Sequencer → H → Prop}
    (nil : ∀ {s host}, P s [] host → Q { s with queue := [], phase := .idle } host)
    (split : ∀ {s m p rest host}, P s (.split m p :: rest) host →
      Q { s.enter (.split m p) rest (SessionHost.active host) with phase := .awaitingSession }
        (s.hostAfter (.split m p) rest host))
    (next : ∀ {s i rest host}, i.isSplit = false → P s (i :: rest) host →
      P (s.enter i rest (SessionHost.active host)) rest (s.hostAfter i rest host))
    {s : Sequencer} {host : H} (h : P { s with phase := .advancing } s.queue host) :
    Q (s.run host).sequencer (s.run host).host := by
  suffices hdrain : ∀ {queue s host}, P s queue host →
      Q (s.drain queue host).sequencer (s.drain queue host).host from hdrain h
  intro queue
  induction queue with
  | nil => exact nil
  | cons i rest ih =>
    intro s host h
    by_cases hi : i.isSplit = true
    · obtain ⟨m, p, rfl⟩ := Instruction.exists_split hi
      exact split h
    · have hplay := ih (next (by simpa using hi) h)
      rw [drain]
      simp only [hi, if_false, Bool.false_eq_true]
      exact hplay

end Play

end Sequencer

end PaneLayout
