import PaneLayout.Proofs.Host

set_option autoImplicit false

/-!
# Faithful execution

A sequencer may be given any plan, and its owner may call it in any order, while the host does what
it likes. This file follows such a performance from outside: by the instructions that the sequencer
says it executes, by the calls that reach the host, and by its answers.

## Main definitions

* `PaneLayout.executed` — the instructions that notices tell of.
* `PaneLayout.Recorded` — any host, together with a record of the calls made to it.
* `PaneLayout.Sequencer.Executes` — what one play does, in terms of the instructions it executes.
* `PaneLayout.Cue`, `PaneLayout.Performance` — what can happen to a sequencer and its host, and how
  both stand after it, with the deeds of the sequencer so far.
* `PaneLayout.Performance.Faithful` — what holds at every moment of a performance.

## Main results

* `PaneLayout.Sequencer.run_executes` — a play executes the queue up to its next split.
* `PaneLayout.Performance.OnScript.after` — every cue leaves the performance on script.
* `PaneLayout.executes_faithfully` — all performances of all plans are faithful.
-/

namespace PaneLayout

open LoggedHost

/-! ### What notices tell -/

/-- The instruction that a notice says is executed. -/
def Notice.executed? : Notice → Option Instruction
  | .executing i _ _ => some i
  | _ => none

/-- **The instructions executed,** according to what was said. -/
def executed (notices : List Notice) : List Instruction := notices.filterMap Notice.executed?

/-- What is said in a row tells of instructions in a row. -/
theorem executed_append (said more : List Notice) :
    executed (said ++ more) = executed said ++ executed more :=
  List.filterMap_append

/-- A notice that tells of no instruction adds none. -/
theorem executed_cons_of_none {notice : Notice} (h : notice.executed? = none)
    (notices : List Notice) : executed (notice :: notices) = executed notices :=
  List.filterMap_cons_none h

/-- The request that an instruction stands for when sessions start in the given directory. -/
def Instruction.request? (cwd : String) : Instruction → Option SessionRequest
  | .split m _ => some ⟨cwd, m.splitHint⟩
  | .jump _ => none
  | .cmd _ => none

/-- Only splits stand for requests. -/
theorem Instruction.request?_of_not_split {i : Instruction} (hi : i.isSplit = false)
    (cwd : String) : i.request? cwd = none := by
  cases i with
  | split m p => simp [isSplit] at hi
  | jump p => rfl
  | cmd p => rfl

/-- Instructions stand for as many requests as there are splits among them. -/
theorem Instruction.length_filterMap_request? (cwd : String) (queue : List Instruction) :
    (queue.filterMap (request? cwd)).length = queue.countP isSplit := by
  rw [List.length_filterMap_eq_countP]
  refine List.countP_congr fun i _ => ?_
  cases i <;> simp [request?, isSplit]

/-! ### Recorded hosts -/

/-- **Recorded hosts.** A host of any kind, and the calls that reached it, the oldest first. -/
structure Recorded (H : Type) where
  host : H
  calls : List HostCall

namespace Recorded

variable {H : Type} [SessionHost H]

instance : SessionHost (Recorded H) where
  active r := SessionHost.active r.host
  request r x := ⟨SessionHost.request r.host x, r.calls ++ [.request x]⟩
  send r id text := ⟨SessionHost.send r.host id text, r.calls ++ [.send id text]⟩
  focus r id := ⟨SessionHost.focus r.host id, r.calls ++ [.focus id]⟩
  idle r := ⟨SessionHost.idle r.host, r.calls⟩

instance : LoggedHost (Recorded H) where
  calls := Recorded.calls
  calls_apply call r := by cases call <;> rfl
  calls_idle _ := rfl

end Recorded

/-! ### One play -/

namespace Sequencer

/-- Taking up an instruction tells of it, and of no other. -/
theorem executed_notices (s t : Sequencer) (i : Instruction) (left : Nat)
    (active : Option SessionId) :
    executed (s.entryNotices i left active ++ t.callNotices i) = [i] := by
  have hentry : executed (s.entryNotices i left active) = [i] := by
    cases active with
    | none => rfl
    | some id =>
      rw [entryNotices]
      split <;> rfl
  have hcall : executed (t.callNotices i) = [] := by
    cases i with
    | split m p => rfl
    | jump p =>
      rw [callNotices]
      split <;> rfl
    | cmd p =>
      rw [callNotices]
      split <;> rfl
  rw [executed_append, hentry, hcall, List.append_nil]

section Play

variable {H : Type} [SessionHost H]

/-- A play ends at a split, after its request. -/
theorem drain_split (s : Sequencer) (m : Mode) (p : Nat) (rest : List Instruction) (host : H) :
    let entered := s.enter (.split m p) rest (SessionHost.active host)
    s.drain (.split m p :: rest) host =
      ⟨{ entered with phase := .awaitingSession }, s.hostAfter (.split m p) rest host,
        s.entryNotices (.split m p) rest.length (SessionHost.active host) ++
          entered.callNotices (.split m p)⟩ := rfl

/-- A play goes on after every other instruction. -/
theorem drain_cons {i : Instruction} (hi : i.isSplit = false) (s : Sequencer)
    (rest : List Instruction) (host : H) :
    let entered := s.enter i rest (SessionHost.active host)
    let later := entered.drain rest (s.hostAfter i rest host)
    s.drain (i :: rest) host =
      ⟨later.sequencer, later.host,
        s.entryNotices i rest.length (SessionHost.active host) ++ entered.callNotices i ++
          later.notices⟩ := by
  rw [drain]
  simp only [hi, Bool.false_eq_true, if_false]
  rfl

/-- A play that ends at a split tells of it alone. -/
theorem executed_drain_split (s : Sequencer) (m : Mode) (p : Nat) (rest : List Instruction)
    (host : H) : executed (s.drain (.split m p :: rest) host).notices = [.split m p] := by
  rw [drain_split, executed_notices]

/-- A play that goes on tells of the instruction first. -/
theorem executed_drain_cons {i : Instruction} (hi : i.isSplit = false) (s : Sequencer)
    (rest : List Instruction) (host : H) :
    executed (s.drain (i :: rest) host).notices =
      i :: executed ((s.enter i rest (SessionHost.active host)).drain rest
        (s.hostAfter i rest host)).notices := by
  rw [drain_cons hi, executed_append, executed_notices]
  rfl

/-- **What a play does** when `queue` is left to play. It executes instructions from the front of
the queue and leaves the others. None of those it executes is a split, but for the last one. It ends
waiting if that is a split, and idle with nothing left if there is no split. -/
structure Executes (s : Sequencer) (queue : List Instruction) (play : Play H) : Prop where
  queue_eq : queue = executed play.notices ++ play.sequencer.queue
  single : ∀ i ∈ (executed play.notices).dropLast, i.isSplit = false
  phase_cases : (play.sequencer.phase = .awaitingSession ∧
      ∃ m p, (executed play.notices).getLast? = some (.split m p)) ∨
    (play.sequencer.phase = .idle ∧ play.sequencer.queue = [] ∧
      ∀ i ∈ executed play.notices, i.isSplit = false)
  cwd_eq : play.sequencer.cwd = s.cwd
  known_eq : play.sequencer.known = s.known

/-- An instruction that is no split comes before what the rest of the play executes. -/
theorem Executes.cons {s : Sequencer} {i : Instruction} {rest : List Instruction} {host : H}
    (hi : i.isSplit = false)
    (h : (s.enter i rest (SessionHost.active host)).Executes rest
      ((s.enter i rest (SessionHost.active host)).drain rest (s.hostAfter i rest host))) :
    s.Executes (i :: rest) (s.drain (i :: rest) host) := by
  have htold := executed_drain_cons hi s rest host
  rw [drain_cons hi] at htold ⊢
  set later := (s.enter i rest (SessionHost.active host)).drain rest (s.hostAfter i rest host)
  constructor
  case queue_eq => rw [htold, List.cons_append, ← h.queue_eq]
  case single =>
    rw [htold]
    intro j hj
    cases hmore : executed later.notices with
    | nil => simp [hmore] at hj
    | cons k more =>
      rw [hmore, List.dropLast_cons_of_ne_nil (List.cons_ne_nil k more), List.mem_cons] at hj
      rcases hj with rfl | hj
      · exact hi
      · exact h.single j (hmore ▸ hj)
  case phase_cases =>
    rw [htold]
    refine h.phase_cases.imp ?_ ?_
    · rintro ⟨hphase, m, p, hlast⟩
      exact ⟨hphase, m, p, by rw [List.getLast?_cons, hlast, Option.getD_some]⟩
    · rintro ⟨hphase, hqueue, hall⟩
      exact ⟨hphase, hqueue, List.forall_mem_cons.2 ⟨hi, hall⟩⟩
  case cwd_eq => exact h.cwd_eq.trans (enter_cwd s i rest _)
  case known_eq => exact h.known_eq.trans (enter_known s i rest _)

/-- **A play executes the queue up to its next split.**

**Proof sketch.** Induction on the queue. A split ends the play; any other instruction is put before
what the rest of the play executes. -/
theorem drain_executes (s : Sequencer) (queue : List Instruction) (host : H) :
    s.Executes queue (s.drain queue host) := by
  induction queue generalizing s host with
  | nil =>
    refine ⟨rfl, ?_, .inr ⟨rfl, rfl, ?_⟩, rfl, rfl⟩
    · exact fun i hi => absurd hi List.not_mem_nil
    · exact fun i hi => absurd hi List.not_mem_nil
  | cons i rest ih =>
    by_cases hi : i.isSplit = true
    · obtain ⟨m, p, rfl⟩ := Instruction.exists_split hi
      have htold := executed_drain_split s m p rest host
      refine ⟨?_, ?_, .inl ⟨rfl, m, p, ?_⟩, enter_cwd s (.split m p) rest _,
        enter_known s (.split m p) rest _⟩
      · rw [htold]
        rfl
      · rw [htold]
        exact fun j hj => absurd hj List.not_mem_nil
      · rw [htold]
        rfl
    · exact .cons (by simpa using hi) (ih _ _)

/-- A play of the whole queue executes it up to its next split. -/
theorem run_executes (s : Sequencer) (host : H) : s.Executes s.queue (s.run host) := by
  have h := drain_executes { s with phase := .advancing } s.queue host
  exact ⟨h.queue_eq, h.single, h.phase_cases, h.cwd_eq, h.known_eq⟩

/-- While a split is under way, beginning is refused. -/
theorem advance_of_waits {s : Sequencer} (h : s.phase = .awaitingSession) (host : H) :
    s.advance host = ⟨s, host, [.advanceIgnored s.queue.length]⟩ := if_pos h

/-- While no split is under way, beginning plays on. -/
theorem advance_of_not_waits {s : Sequencer} (h : s.phase ≠ .awaitingSession) (host : H) :
    s.advance host = s.run host := if_neg h

/-- While a split is under way, going on plays on. -/
theorem resume_of_waits {s : Sequencer} (h : s.phase = .awaitingSession) (host : H) :
    s.resume host = (true, s.run host) := if_pos h

/-- While no split is under way, going on is refused. -/
theorem resume_of_not_waits {s : Sequencer} (h : s.phase ≠ .awaitingSession) (host : H) :
    s.resume host = (false, ⟨s, host, [.resumeIgnored s.phase s.queue.length]⟩) := if_neg h

omit [SessionHost H] in
/-- **A play executes one split and waits, or none and ends.** -/
theorem Executes.countP_cases {s : Sequencer} {queue : List Instruction} {play : Play H}
    (h : s.Executes queue play) :
    (play.sequencer.phase = .awaitingSession ∧
        (executed play.notices).countP Instruction.isSplit = 1) ∨
      (play.sequencer.phase = .idle ∧ play.sequencer.queue = [] ∧
        (executed play.notices).countP Instruction.isSplit = 0) := by
  refine h.phase_cases.imp ?_ ?_
  · rintro ⟨hphase, m, p, hlast⟩
    refine ⟨hphase, ?_⟩
    have hbefore : (executed play.notices).dropLast.countP Instruction.isSplit = 0 :=
      List.countP_eq_zero.2 fun i hi => by simp [h.single i hi]
    rw [← List.dropLast_append_getLast? _ hlast, List.countP_append, hbefore]
    rfl
  · rintro ⟨hphase, hqueue, hall⟩
    exact ⟨hphase, hqueue, List.countP_eq_zero.2 fun i hi => by simp [hall i hi]⟩

end Play

section Requests

variable {H : Type} [LoggedHost H]

/-- **The requests of a play** are those of the splits that it executes. -/
theorem requests_drain (s : Sequencer) (queue : List Instruction) (host : H) :
    requests (s.drain queue host).host = requests host ++
      (executed (s.drain queue host).notices).filterMap (Instruction.request? s.cwd) := by
  induction queue generalizing s host with
  | nil => exact (List.append_nil _).symm
  | cons i rest ih =>
    by_cases hi : i.isSplit = true
    · obtain ⟨m, p, rfl⟩ := Instruction.exists_split hi
      rw [executed_drain_split, drain_split, requests_hostAfter_split]
      rfl
    · have hnot : i.isSplit = false := by simpa using hi
      rw [executed_drain_cons hnot, List.filterMap_cons_none (i.request?_of_not_split hnot s.cwd),
        drain_cons hnot, ih, requests_hostAfter hnot, enter_cwd]

/-- The requests of a play of the whole queue are those of the splits that it executes. -/
theorem requests_run (s : Sequencer) (host : H) :
    requests (s.run host).host = requests host ++
      (executed (s.run host).notices).filterMap (Instruction.request? s.cwd) :=
  requests_drain { s with phase := .advancing } s.queue host

end Requests

end Sequencer

/-! ### Performances -/

/-- **Cues.** The owner of a sequencer calls it, or the host goes on by itself and is then as given.
-/
inductive Cue (H : Type) where
  | advance
  | resume
  | observe (id : SessionId)
  | host (next : H)

/-- **Deeds.** A sequencer executes an instruction, or takes up its work again when told to. -/
inductive Deed where
  | executed (instruction : Instruction)
  | resumed
  deriving DecidableEq, Repr

/-- The instruction that is executed in a deed. -/
def Deed.instruction? : Deed → Option Instruction
  | .executed i => some i
  | .resumed => none

/-- **Performances.** A sequencer and its host, and what the sequencer has done so far, the oldest
first. -/
structure Performance (H : Type) where
  sequencer : Sequencer
  host : Recorded H
  deeds : List Deed

namespace Performance

/-- The instructions executed so far. -/
def instructions {H : Type} (w : Performance H) : List Instruction :=
  w.deeds.filterMap Deed.instruction?

variable {H : Type} [SessionHost H]

/-- **The performance after a cue.** What was executed is taken from the notices of the call; that
work was taken up again, from its answer. -/
def after (w : Performance H) : Cue H → Performance H
  | .advance =>
    let play := w.sequencer.advance w.host
    ⟨play.sequencer, play.host, w.deeds ++ (executed play.notices).map .executed⟩
  | .resume =>
    let (answer, play) := w.sequencer.resume w.host
    ⟨play.sequencer, play.host, w.deeds ++ (if answer then [.resumed] else []) ++
      (executed play.notices).map .executed⟩
  | .observe id => { w with sequencer := w.sequencer.observe id }
  | .host next => { w with host := { w.host with host := next } }

/-- **A performance of a plan,** from its beginning up to the last of some cues. -/
def ofPlan (plan : Plan) (cwd : String) (hideFromHistory : Bool) (host : H) (cues : List (Cue H)) :
    Performance H :=
  cues.foldl after ⟨.ofPlan plan cwd hideFromHistory, ⟨host, []⟩, []⟩

/-- **On script.** The instructions executed so far and those left make up the queue, the requests
that have reached the host are those of the splits executed, and the sequencer waits exactly after a
split. -/
structure OnScript (queue : List Instruction) (cwd : String) (w : Performance H) : Prop where
  queue_eq : queue = w.instructions ++ w.sequencer.queue
  requests_eq : requests w.host = w.instructions.filterMap (Instruction.request? cwd)
  cwd_eq : w.sequencer.cwd = cwd
  waits_iff : w.sequencer.phase = .awaitingSession ↔
    ∃ m p, w.deeds.getLast? = some (.executed (.split m p))

/-- The instructions of deeds that are all executions. -/
theorem filterMap_map_executed (queue : List Instruction) :
    (queue.map Deed.executed).filterMap Deed.instruction? = queue := by
  rw [List.filterMap_map]
  exact List.filterMap_some

variable {queue : List Instruction} {cwd : String} {w : Performance H}

/-- **A play keeps the performance on script,** if it does not begin directly behind a split.

**Proof sketch.** What is executed moves from the queue to the deeds, and its splits are the
requests made. The sequencer waits after it if the last of it is a split. If it is not, or if
nothing is executed, no split is the last deed. -/
theorem OnScript.run (h : OnScript queue cwd w) (before : List Deed)
    (hbefore : before.filterMap Deed.instruction? = [])
    (hlast : ∀ m p, (w.deeds ++ before).getLast? ≠ some (.executed (.split m p))) :
    OnScript queue cwd
      ⟨(w.sequencer.run w.host).sequencer, (w.sequencer.run w.host).host,
        w.deeds ++ before ++ (executed (w.sequencer.run w.host).notices).map Deed.executed⟩ := by
  have hplay := w.sequencer.run_executes w.host
  set play := w.sequencer.run w.host
  set q := executed play.notices
  have hsofar : (w.deeds ++ before ++ q.map Deed.executed).filterMap Deed.instruction? =
      w.instructions ++ q := by
    rw [List.filterMap_append, List.filterMap_append, hbefore, List.append_nil,
      filterMap_map_executed, instructions]
  constructor
  case queue_eq => rw [instructions, hsofar, h.queue_eq, hplay.queue_eq, List.append_assoc]
  case requests_eq =>
    rw [instructions, hsofar, Sequencer.requests_run, h.requests_eq, h.cwd_eq,
      List.filterMap_append]
  case cwd_eq => rw [hplay.cwd_eq, h.cwd_eq]
  case waits_iff =>
    rw [List.getLast?_append, List.getLast?_map]
    rcases hplay.phase_cases with ⟨hphase, m, p, hsplit⟩ | ⟨hphase, -, hall⟩
    · rw [hphase, hsplit]
      exact ⟨fun _ => ⟨m, p, rfl⟩, fun _ => rfl⟩
    · rw [hphase]
      refine ⟨fun hwaits => absurd hwaits (by decide), ?_⟩
      rintro ⟨m, p, hsplit⟩
      cases hq : q.getLast? with
      | none =>
        rw [hq] at hsplit
        exact absurd hsplit (hlast m p)
      | some i =>
        rw [hq] at hsplit
        obtain rfl : i = .split m p := by simpa using hsplit
        exact absurd (hall _ (List.mem_of_getLast? hq)) (by simp [Instruction.isSplit])

/-- While a split is under way, a cue to begin changes nothing. -/
theorem after_advance_of_waits (hwaits : w.sequencer.phase = .awaitingSession) :
    w.after .advance = w := by
  have hsilent : executed [.advanceIgnored w.sequencer.queue.length] = [] := rfl
  simp only [after, Sequencer.advance_of_waits hwaits, hsilent, List.map_nil, List.append_nil]

/-- While no split is under way, a cue to go on changes nothing. -/
theorem after_resume_of_not_waits (hwaits : w.sequencer.phase ≠ .awaitingSession) :
    w.after .resume = w := by
  have hsilent : executed [.resumeIgnored w.sequencer.phase w.sequencer.queue.length] = [] := rfl
  simp only [after, Sequencer.resume_of_not_waits hwaits, hsilent, Bool.false_eq_true, if_false,
    List.map_nil, List.append_nil]

/-- **Every cue leaves the performance on script.** A cue to begin that is not refused comes when
the last deed is no split, and one to go on is a deed of its own. -/
theorem OnScript.after (h : OnScript queue cwd w) (cue : Cue H) :
    OnScript queue cwd (w.after cue) := by
  cases cue with
  | advance =>
    by_cases hwaits : w.sequencer.phase = .awaitingSession
    · rwa [after_advance_of_waits hwaits]
    · rw [Performance.after, Sequencer.advance_of_not_waits hwaits]
      have hlast : ∀ m p, w.deeds.getLast? ≠ some (.executed (.split m p)) :=
        fun m p hsplit => hwaits (h.waits_iff.2 ⟨m, p, hsplit⟩)
      simpa using h.run [] rfl (by simpa using hlast)
  | resume =>
    by_cases hwaits : w.sequencer.phase = .awaitingSession
    · rw [Performance.after, Sequencer.resume_of_waits hwaits]
      exact h.run [.resumed] rfl (by simp)
    · rwa [after_resume_of_not_waits hwaits]
  | observe id =>
    have hobserve : ∃ known, w.sequencer.observe id = { w.sequencer with known } := by
      rw [Sequencer.observe]
      split
      · exact ⟨_, rfl⟩
      · exact ⟨_, rfl⟩
    obtain ⟨known, hknown⟩ := hobserve
    rw [Performance.after, hknown]
    exact ⟨h.queue_eq, h.requests_eq, h.cwd_eq, h.waits_iff⟩
  | host next => exact ⟨h.queue_eq, h.requests_eq, h.cwd_eq, h.waits_iff⟩

/-- Every performance of a plan is on script. -/
theorem onScript_ofPlan (plan : Plan) (cwd : String) (hideFromHistory : Bool) (host : H)
    (cues : List (Cue H)) :
    OnScript plan.queue cwd (ofPlan plan cwd hideFromHistory host cues) := by
  rw [ofPlan]
  induction cues using List.reverseRecOn with
  | nil => exact ⟨rfl, rfl, rfl, by simp [Sequencer.ofPlan]⟩
  | append_singleton cues cue ih =>
    rw [List.foldl_append]
    exact ih.after cue

/-- **Faithful execution.** The performance is on script. The next call that is not refused plays up
to the next split, or to the end if there is none. It executes at most one split, and nothing after
it. Cues that come at the wrong time change neither the sequencer nor its host, and going on is
answered with success exactly when a split is under way. -/
structure Faithful (queue : List Instruction) (cwd : String) (w : Performance H) : Prop where
  onScript : OnScript queue cwd w
  advance_plays : w.sequencer.phase ≠ .awaitingSession →
    w.sequencer.Executes w.sequencer.queue (w.sequencer.advance w.host)
  resume_plays : w.sequencer.phase = .awaitingSession →
    w.sequencer.Executes w.sequencer.queue (w.sequencer.resume w.host).2
  advance_single : ∀ i ∈ (executed (w.sequencer.advance w.host).notices).dropLast,
    i.isSplit = false
  resume_single : ∀ i ∈ (executed (w.sequencer.resume w.host).2.notices).dropLast,
    i.isSplit = false
  advance_ignored : w.sequencer.phase = .awaitingSession → w.after .advance = w
  resume_ignored : w.sequencer.phase ≠ .awaitingSession → w.after .resume = w
  resume_iff : (w.sequencer.resume w.host).1 = true ↔ w.sequencer.phase = .awaitingSession

/-- A performance that is on script is faithful. -/
theorem OnScript.faithful (h : OnScript queue cwd w) : w.Faithful queue cwd := by
  have hrun := w.sequencer.run_executes w.host
  by_cases hwaits : w.sequencer.phase = .awaitingSession
  · have hadvance := Sequencer.advance_of_waits hwaits w.host
    have hresume := Sequencer.resume_of_waits hwaits w.host
    refine ⟨h, absurd hwaits, fun _ => ?_, ?_, ?_, after_advance_of_waits,
      after_resume_of_not_waits, ?_⟩
    · rwa [hresume]
    · rw [hadvance]
      exact fun i hi => absurd hi List.not_mem_nil
    · rw [hresume]
      exact hrun.single
    · rw [hresume]
      exact ⟨fun _ => hwaits, fun _ => rfl⟩
  · have hadvance := Sequencer.advance_of_not_waits hwaits w.host
    have hresume := Sequencer.resume_of_not_waits hwaits w.host
    refine ⟨h, fun _ => ?_, fun hyes => absurd hyes hwaits, ?_, ?_, after_advance_of_waits,
      after_resume_of_not_waits, ?_⟩
    · rwa [hadvance]
    · rw [hadvance]
      exact hrun.single
    · rw [hresume]
      exact fun i hi => absurd hi List.not_mem_nil
    · rw [hresume]
      exact ⟨fun hno => absurd hno Bool.false_ne_true, fun hyes => absurd hyes hwaits⟩

end Performance

/-- **Every performance of every plan is faithful.** The plan may be made by hand, with panes that
are not in its registry; the sequencer may be called in any order; and the host may answer the calls
as it likes, and be another one after each.

**Proof sketch.** Every cue leaves the performance on script (`Performance.OnScript.after`), and
what the next call would do follows from the phase and from what a play executes
(`Sequencer.run_executes`). -/
theorem executes_faithfully {H : Type} [SessionHost H] (plan : Plan) (cwd : String)
    (hideFromHistory : Bool) (host : H) (cues : List (Cue H)) :
    (Performance.ofPlan plan cwd hideFromHistory host cues).Faithful plan.queue cwd :=
  (Performance.onScript_ofPlan plan cwd hideFromHistory host cues).faithful

/-- A plan without panes, on a host that creates sessions at once: the second cue comes while the
split is under way, and the last one when nothing is. -/
example : (Performance.ofPlan ⟨.tab, .empty, [.split .tab 7, .cmd 7]⟩ "/" false
    (QueuedHost.new none true) [.advance, .advance, .resume, .resume]).deeds =
      [.executed (.split .tab 7), .resumed, .executed (.cmd 7)] := by decide

end PaneLayout
