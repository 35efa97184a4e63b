import Mathlib.Data.Finset.Option
import PaneLayout.Proofs.Rest
import PaneLayout.Proofs.SingleFlight

set_option autoImplicit false

/-!
# Counting resumptions

A driver may be told of any sessions, in any order and any number of times, and be given turns at
any moments. This file says exactly which turns play the layout on: those before which, since the
turn before, a session was named for the first time while there was something left to play. From
this it counts the requests made and tells when the layout is through.

## Main definitions

* `PaneLayout.named` — the sessions that happenings show to be alive.
* `PaneLayout.turnsAfter` — the number of turns whose past has some property.
* `PaneLayout.Scene.afterAll`, `PaneLayout.Scene.Traces` — runs on which all happenings are kept.
* `PaneLayout.Scene.Woken` — a session has been named for the first time since the last turn.
* `PaneLayout.Scene.resumptions` — the number of turns that played on.
* `PaneLayout.Scene.Unattended` — the happenings while nobody touches the driver.
* `PaneLayout.Sequencer.InStep` — the requests of a sequencer that has been resumed some times.
* `PaneLayout.Scene.Tallied` — the invariant of scenes.

## Main results

* `PaneLayout.Scene.woken_append` — what one more happening does to a wake-up.
* `PaneLayout.Scene.Tallied.after` — the tally stays right.
* `PaneLayout.resumption_accounting` — the tally of every run.
-/

namespace PaneLayout

open LoggedHost

variable {H : Type}

/-! ### Happenings of the past -/

/-- Whether the host gives the driver a turn. -/
def Happening.isTurn : Happening H → Bool
  | .turn => true
  | _ => false

/-- The session that a happening shows to be alive, by an event that tells the driver of it. -/
def Happening.alive? : Happening H → Option SessionId
  | .event e => e.alive?
  | _ => none

/-- **Sessions named** by the events among some happenings, in order. -/
def named (past : List (Happening H)) : List SessionId := past.filterMap Happening.alive?

/-- One more happening may name one more session. -/
theorem named_append (past : List (Happening H)) (a : Happening H) :
    named (past ++ [a]) = named past ++ a.alive?.toList := by
  rw [named, List.filterMap_append, named]
  cases h : a.alive? <;> simp [h]

/-- **Counting turns**: the number of turns among some happenings whose past has a property, when
`past` has happened before the first of them. -/
def turnsAfter (p : List (Happening H) → Prop) [DecidablePred p] :
    List (Happening H) → List (Happening H) → Nat
  | _, [] => 0
  | past, a :: as => (if a.isTurn ∧ p past then 1 else 0) + turnsAfter p (past ++ [a]) as

/-- One more happening may be one more turn to count. -/
theorem turnsAfter_append (p : List (Happening H) → Prop) [DecidablePred p]
    (past as : List (Happening H)) (a : Happening H) :
    turnsAfter p past (as ++ [a]) =
      turnsAfter p past as + if a.isTurn ∧ p (past ++ as) then 1 else 0 := by
  induction as generalizing past with
  | nil => simp [turnsAfter]
  | cons b as ih => simp [turnsAfter, ih, Nat.add_assoc]

/-- What is no turn does not count. -/
theorem turnsAfter_append_of_not_turn (p : List (Happening H) → Prop) [DecidablePred p]
    (past as : List (Happening H)) {a : Happening H} (ha : a.isTurn = false) :
    turnsAfter p past (as ++ [a]) = turnsAfter p past as := by
  rw [turnsAfter_append, ha, if_neg (fun h => Bool.false_ne_true h.1), Nat.add_zero]

namespace Scene

variable [SessionHost H]

/-- The scene after some happenings. -/
def afterAll (w : Scene H) (as : List (Happening H)) : Scene H := as.foldl after w

/-- The last happening comes last. -/
theorem afterAll_append (w : Scene H) (as : List (Happening H)) (a : Happening H) :
    w.afterAll (as ++ [a]) = (w.afterAll as).after a := by
  simp [afterAll]

/-- **Runs on record**: all that has happened, each thing allowed where it happened, and the scene
it leads to. -/
inductive Traces (allowed : Scene H → Happening H → Prop) (w₀ : Scene H) :
    List (Happening H) → Scene H → Prop where
  | nil : Traces allowed w₀ [] w₀
  | snoc {as : List (Happening H)} {w : Scene H} {a : Happening H} :
    Traces allowed w₀ as w → allowed w a → Traces allowed w₀ (as ++ [a]) (w.after a)

/-- What is allowed wherever it happens makes a run. -/
theorem traces_afterAll {allowed : Scene H → Happening H → Prop} (w₀ : Scene H)
    {as : List (Happening H)} (h : ∀ a ∈ as, ∀ w, allowed w a) :
    Traces allowed w₀ as (w₀.afterAll as) := by
  induction as using List.reverseRecOn with
  | nil => exact .nil
  | append_singleton as a ih =>
    rw [afterAll_append]
    exact .snoc (ih fun b hb => h b (List.mem_append_left _ hb)) (h a (by simp) _)

instance (w : Scene H) : Decidable w.Resumes :=
  inferInstanceAs (Decidable (_ = true))

/-- **Wake-ups.** Since the last turn, while there was something left to play, a session has been
named that neither had the focus at the start nor had been named before. -/
def Woken (w₁ : Scene H) (first : Option SessionId) (past : List (Happening H)) : Prop :=
  ∃ before a since id, past = before ++ a :: since ∧ (∀ b ∈ since, b.isTurn = false) ∧
    ¬ (w₁.afterAll before).Finished ∧ a.alive? = some id ∧ first ≠ some id ∧ id ∉ named before

/-- **What one more happening does to a wake-up**: a turn ends it, and a session that is new makes
one, if there is something left to play. -/
theorem woken_append (w₁ : Scene H) (first : Option SessionId) (past : List (Happening H))
    (a : Happening H) :
    w₁.Woken first (past ++ [a]) ↔ (a.isTurn = false ∧ w₁.Woken first past) ∨
      (¬ (w₁.afterAll past).Finished ∧ ∃ id, a.alive? = some id ∧ first ≠ some id ∧
        id ∉ named past) := by
  constructor
  · rintro ⟨before, b, since, id, hpast, hsince, hleft, hid, hfirst, hnew⟩
    rcases List.eq_nil_or_concat since with rfl | ⟨since, c, rfl⟩
    · obtain ⟨rfl, hba⟩ := List.append_inj' hpast rfl
      obtain rfl : a = b := by simpa using hba
      exact .inr ⟨hleft, id, hid, hfirst, hnew⟩
    · rw [List.concat_eq_append, ← List.cons_append, ← List.append_assoc] at hpast
      obtain ⟨rfl, hca⟩ := List.append_inj' hpast rfl
      obtain rfl : a = c := by simpa using hca
      simp only [List.concat_eq_append, List.mem_append, List.mem_singleton, or_imp, forall_and,
        forall_eq] at hsince
      exact .inl ⟨hsince.2, before, b, since, id, rfl, hsince.1, hleft, hid, hfirst, hnew⟩
  · rintro (⟨hturn, before, b, since, id, rfl, hsince, hrest⟩ | ⟨hleft, id, hid, hfirst, hnew⟩)
    · refine ⟨before, b, since ++ [a], id, by simp, ?_, hrest⟩
      simp only [List.mem_append, List.mem_singleton, or_imp, forall_and, forall_eq]
      exact ⟨hsince, hturn⟩
    · exact ⟨past, a, [], id, rfl, by simp, hleft, hid, hfirst, hnew⟩

/-- **Resumptions**: the number of turns that played on. -/
def resumptions (w₁ : Scene H) (as : List (Happening H)) : Nat :=
  turnsAfter (fun past => (w₁.afterAll past).Resumes) [] as

/-- One more happening may be one more resumption. -/
theorem resumptions_append (w₁ : Scene H) (as : List (Happening H)) (a : Happening H) :
    w₁.resumptions (as ++ [a]) =
      w₁.resumptions as + if a.isTurn ∧ (w₁.afterAll as).Resumes then 1 else 0 := by
  rw [resumptions, turnsAfter_append, List.nil_append, resumptions]

end Scene

/-! ### The tally -/

section Tally

variable [LoggedHost H]

/-- **In step**: the splits of the plan are those that have made their requests and those that are
left. When `k` resumptions have been made, the sequencer has finished after `k` requests; or it
waits after one more, and the sessions it knows are those given. -/
def Sequencer.InStep (start : H) (plan : Plan) (heard : SessionId → Prop) (k : Nat) (host : H)
    (s : Sequencer) : Prop :=
  plan.queue.countP Instruction.isSplit =
      (issued start host).length + s.queue.countP Instruction.isSplit ∧
    ((s.phase = .idle ∧ s.queue = [] ∧ (issued start host).length = k) ∨
      (s.phase = .awaitingSession ∧ (issued start host).length = k + 1 ∧
        ∀ id, id ∈ s.known ↔ heard id))

/-- **A play leaves the sequencer in step,** if it begins with as many requests as resumptions: it
makes one more request, or comes to the end. -/
theorem Sequencer.inStep_run {start host : H} {plan : Plan} {heard : SessionId → Prop} {k : Nat}
    {s : Sequencer} (hprior : requests start <+: requests host)
    (htotal : plan.queue.countP Instruction.isSplit =
      (issued start host).length + s.queue.countP Instruction.isSplit)
    (hk : (issued start host).length = k) (hknown : ∀ id, id ∈ s.known ↔ heard id) :
    (s.run host).sequencer.InStep start plan heard k (s.run host).host := by
  have hplay := s.run_executes host
  have hissued : (issued start (s.run host).host).length =
      k + (executed (s.run host).notices).countP Instruction.isSplit := by
    rw [issued_append hprior (s.requests_run host), List.length_append, hk,
      Instruction.length_filterMap_request?]
  have hsplits : s.queue.countP Instruction.isSplit =
      (executed (s.run host).notices).countP Instruction.isSplit +
        (s.run host).sequencer.queue.countP Instruction.isSplit := by
    rw [← List.countP_append, ← hplay.queue_eq]
  refine ⟨by omega, ?_⟩
  rcases hplay.countP_cases with ⟨hphase, hone⟩ | ⟨hphase, hnil, hzero⟩
  · exact .inr ⟨hphase, by rw [hissued, hone], fun id => by rw [hplay.known_eq, hknown]⟩
  · exact .inl ⟨hphase, hnil, by rw [hissued, hzero, Nat.add_zero]⟩

/-- Staying in step does not depend on the sessions heard of, once nothing is awaited. -/
theorem Sequencer.InStep.mono {start host next : H} {plan : Plan} {heard heard' : SessionId → Prop}
    {k : Nat} {s : Sequencer} (h : s.InStep start plan heard k host)
    (hissued : issued start next = issued start host)
    (hheard : s.phase = .awaitingSession → ∀ id, heard' id ↔ heard id) :
    s.InStep start plan heard' k next := by
  rw [InStep, hissued]
  refine ⟨h.1, h.2.imp_right ?_⟩
  rintro ⟨hphase, hlen, hknown⟩
  exact ⟨hphase, hlen, fun id => (hknown id).trans (hheard hphase id).symm⟩

namespace Scene

/-- **Unattended**: no layout is started, the live one is left in place, the settings are kept, and
the host calls nobody when it goes on by itself. The driver may be told of any sessions. -/
def Unattended (w : Scene H) (a : Happening H) : Prop :=
  w.Undisturbed (fun host next => calls next = calls host) (fun _ _ => True) a ∧ a ≠ .detach ∧
    ∀ settings, a ≠ .configure settings

/-- The sessions that are not new: the one that had the focus at the start, and those named. -/
def Old (start : H) (past : List (Happening H)) (id : SessionId) : Prop :=
  SessionHost.active start = some id ∨ id ∈ named past

/-- One more happening may make one more session old. -/
theorem old_append (start : H) (past : List (Happening H)) (a : Happening H) (id : SessionId) :
    Old start (past ++ [a]) id ↔ Old start past id ∨ a.alive? = some id := by
  rw [Old, Old, named_append, List.mem_append, Option.mem_toList, or_assoc]

open Classical in
/-- **The tally** after some happenings. The driver is at rest, and a resumption is due exactly
after a wake-up; the resumptions made are the turns after a wake-up; with the one that is due, they
are no more than the sessions that were new; and the sequencer is in step. -/
structure Tallied (start : H) (plan : Plan) (w₁ : Scene H) (as : List (Happening H)) (w : Scene H) :
    Prop where
  reached : w = w₁.afterAll as
  enabled : w.driver.settings.enabled = true
  rested : w.Rested
  prior : requests start <+: requests w.host
  due_iff : w.driver.resumePending = true ↔ w₁.Woken (SessionHost.active start) as
  counted : w₁.resumptions as = turnsAfter (w₁.Woken (SessionHost.active start)) [] as
  bounded : w₁.resumptions as + w.driver.resumePending.toNat ≤
    ((named as).toFinset \ (SessionHost.active start).toFinset).card
  live : ∃ s, w.driver.sequencer = some s ∧
    s.InStep start plan (Old start as) (w₁.resumptions as) w.host

/-- A launch opens the tally. -/
theorem Tallied.launched (w₀ : Scene H) (hon : w₀.driver.settings.enabled = true)
    (request : LayoutRequest) {plan : Plan} (hqueue : FollowedUp plan.queue) :
    Tallied w₀.host plan (w₀.launched request plan) [] (w₀.launched request plan) := by
  constructor
  case reached => rfl
  case enabled => exact hon
  case rested => exact rested_launched w₀ hqueue
  case prior =>
    rw [Scene.launched, Sequencer.requests_run]
    exact List.prefix_append _ _
  case due_iff =>
    refine ⟨fun hdue => absurd hdue (by simp [Scene.launched]), ?_⟩
    rintro ⟨before, a, since, id, hnil, -⟩
    exact absurd hnil (by simp)
  case counted => rfl
  case bounded => exact Nat.zero_le _
  case live =>
    refine ⟨_, rfl, Sequencer.inStep_run (List.prefix_refl _) ?_ (by rw [issued_self]; rfl) ?_⟩
    · rw [issued_self, List.length_nil, Nat.zero_add]
      rfl
    · intro id
      rw [LayoutDriver.fresh, Option.mem_toList]
      exact ⟨.inl, fun h => h.resolve_right List.not_mem_nil⟩

section Step

variable {start : H} {plan : Plan} {w₁ w : Scene H} {as : List (Happening H)} {a : Happening H}

/-- At rest, a turn would play on exactly if a resumption is due. -/
theorem Rested.resumes_iff {H : Type} [SessionHost H] {w : Scene H} (h : w.Rested) :
    w.Resumes ↔ w.driver.resumePending = true := by
  rw [Resumes, (h.driver_atRest.runScheduled w.host).1]

/-- **Nothing new**: the tally stays as it is if no turn is given, nothing is heard that is new, the
driver stays the same, and the host calls nobody. -/
theorem Tallied.still (h : Tallied start plan w₁ as w) (hturn : a.isTurn = false)
    (hold : ∀ id, a.alive? = some id → w.Finished ∨ Old start as id)
    (hdriver : (w.after a).driver = w.driver) (hcalls : calls (w.after a).host = calls w.host) :
    Tallied start plan w₁ (as ++ [a]) (w.after a) := by
  have hrequests : requests (w.after a).host = requests w.host := by rw [requests, hcalls, requests]
  have hcount : w₁.resumptions (as ++ [a]) = w₁.resumptions as :=
    turnsAfter_append_of_not_turn _ [] as hturn
  have hwoken : w₁.Woken (SessionHost.active start) (as ++ [a]) ↔
      w₁.Woken (SessionHost.active start) as := by
    rw [woken_append, ← h.reached]
    refine ⟨?_, fun hwoken => .inl ⟨hturn, hwoken⟩⟩
    rintro (⟨-, hwoken⟩ | ⟨hleft, id, hid, hfirst, hnew⟩)
    · exact hwoken
    · exact absurd ((hold id hid).resolve_left hleft) (not_or.2 ⟨hfirst, hnew⟩)
  obtain ⟨s, hs, hstep⟩ := h.live
  constructor
  case reached => rw [afterAll_append, ← h.reached]
  case enabled => rw [hdriver, h.enabled]
  case rested => exact h.rested.after a
  case prior => exact hrequests ▸ h.prior
  case due_iff => rw [hdriver, hwoken, h.due_iff]
  case counted =>
    classical
    rw [hcount, turnsAfter_append_of_not_turn _ _ _ hturn, h.counted]
  case bounded =>
    rw [hdriver, hcount]
    refine h.bounded.trans (Finset.card_le_card (Finset.sdiff_subset_sdiff ?_ subset_rfl))
    intro id hid
    rw [List.mem_toFinset] at hid ⊢
    rw [named_append]
    exact List.mem_append_left _ hid
  case live =>
    rw [hcount]
    refine ⟨s, hdriver ▸ hs, hstep.mono (issued_congr start hrequests) fun hphase id => ?_⟩
    rw [old_append]
    refine ⟨?_, .inl⟩
    rintro (hid | hid)
    · exact hid
    · refine (hold id hid).resolve_left fun hfin => absurd (hfin s hs) ?_
      simp [Sequencer.isFinished_of_waits hphase]

/-- **Something new is heard**: a resumption is due. -/
theorem Tallied.hears (h : Tallied start plan w₁ as w) {id : SessionId} (hid : a.alive? = some id)
    (hturn : a.isTurn = false) {s : Sequencer} (hs : w.driver.sequencer = some s)
    (hphase : s.phase = .awaitingSession) (hnew : ¬ Old start as id)
    (hafter : w.after a = ⟨{ w.driver with
      sequencer := some { s with known := id :: s.known }, resumePending := true }, w.host⟩) :
    Tallied start plan w₁ (as ++ [a]) (w.after a) := by
  have hcount : w₁.resumptions (as ++ [a]) = w₁.resumptions as :=
    turnsAfter_append_of_not_turn _ [] as hturn
  have hleft : ¬ w.Finished :=
    fun hfin => absurd (hfin s hs) (by simp [Sequencer.isFinished_of_waits hphase])
  obtain ⟨hfirst, hfresh⟩ := not_or.1 hnew
  obtain ⟨s', hs', hstep⟩ := h.live
  obtain rfl : s = s' := Option.some.inj (hs.symm.trans hs')
  constructor
  case reached => rw [afterAll_append, ← h.reached]
  case enabled => rw [hafter, h.enabled]
  case rested => exact h.rested.after a
  case prior =>
    rw [hafter]
    exact h.prior
  case due_iff =>
    rw [hafter, woken_append, ← h.reached]
    exact ⟨fun _ => .inr ⟨hleft, id, hid, hfirst, hfresh⟩, fun _ => rfl⟩
  case counted =>
    classical
    rw [hcount, turnsAfter_append_of_not_turn _ _ _ hturn, h.counted]
  case bounded =>
    rw [hafter, hcount, Bool.toNat_true]
    have hinsert : (named (as ++ [a])).toFinset \ (SessionHost.active start).toFinset =
        insert id ((named as).toFinset \ (SessionHost.active start).toFinset) := by
      ext x
      simp [named_append, hid]
      grind
    rw [hinsert, Finset.card_insert_of_notMem (by simp [hfresh])]
    exact Nat.succ_le_succ ((Nat.le_add_right _ _).trans h.bounded)
  case live =>
    rw [hafter, hcount]
    refine ⟨_, rfl, hstep.1, ?_⟩
    rcases hstep.2 with ⟨hidle, -⟩ | ⟨-, hissued, hknown⟩
    · rw [hphase] at hidle
      exact absurd hidle (by decide)
    · refine .inr ⟨hphase, hissued, fun x => ?_⟩
      rw [old_append, hid, List.mem_cons, hknown, or_comm, Option.some.injEq, eq_comm]

/-- What a turn does: it makes the resumption that is due, if one is, and leaves the sequencer in
step. -/
theorem Tallied.played (h : Tallied start plan w₁ as w) :
    (w.after .turn).driver.settings = w.driver.settings ∧
      (w.after .turn).driver.resumePending = false ∧
      requests start <+: requests (w.after .turn).host ∧
      ∃ s, (w.after .turn).driver.sequencer = some s ∧
        s.InStep start plan (Old start as)
          (w₁.resumptions as + w.driver.resumePending.toNat) (w.after .turn).host := by
  rw [Scene.after]
  obtain ⟨s, hs, hstep⟩ := h.live
  cases hdue : w.driver.resumePending with
  | false =>
    rw [LayoutDriver.runScheduled_of_not_due hdue]
    exact ⟨rfl, hdue, h.prior, s, hs, hstep⟩
  | true =>
    obtain ⟨s', hs', hphase⟩ := h.rested.due hdue
    obtain rfl : s = s' := Option.some.inj (hs.symm.trans hs')
    obtain ⟨hsplits, ⟨hidle, -⟩ | ⟨-, hissued, hknown⟩⟩ := hstep
    · rw [hphase] at hidle
      exact absurd hidle (by decide)
    · rw [LayoutDriver.runScheduled_of_due hs hdue hphase]
      refine ⟨rfl, rfl, ?_, _, rfl, Sequencer.inStep_run h.prior hsplits hissued hknown⟩
      rw [Sequencer.requests_run]
      exact h.prior.trans (List.prefix_append _ _)

/-- **A turn**: the resumption that is due is made. -/
theorem Tallied.turn (h : Tallied start plan w₁ as w) :
    Tallied start plan w₁ (as ++ [.turn]) (w.after .turn) := by
  have hnamed : named (as ++ [.turn]) = named as := by simp [named_append, Happening.alive?]
  have hcount : w₁.resumptions (as ++ [.turn]) =
      w₁.resumptions as + w.driver.resumePending.toNat := by
    simp only [resumptions_append, ← h.reached, h.rested.resumes_iff]
    cases w.driver.resumePending <;> simp [Happening.isTurn]
  obtain ⟨hsettings, hrest, hprior, s, hs, hstep⟩ := h.played
  constructor
  case reached => rw [afterAll_append, ← h.reached]
  case enabled => rw [hsettings, h.enabled]
  case rested => exact h.rested.after .turn
  case prior => exact hprior
  case due_iff => simp [hrest, woken_append, Happening.isTurn, Happening.alive?]
  case counted =>
    classical
    have hiff : (w₁.afterAll as).Resumes ↔ w₁.Woken (SessionHost.active start) as := by
      rw [← h.reached, h.rested.resumes_iff, h.due_iff]
    rw [resumptions_append, turnsAfter_append, h.counted, List.nil_append]
    exact congrArg _ (if_congr (and_congr_right fun _ => hiff) rfl rfl)
  case bounded =>
    rw [hrest, hcount, hnamed]
    exact h.bounded
  case live =>
    rw [hcount]
    exact ⟨s, hs, hstep.mono rfl fun _ id => by rw [Old, hnamed, Old]⟩

/-- **A session is named**: it is new to the sequencer or not, and all is over or not. -/
theorem Tallied.event_of_alive (h : Tallied start plan w₁ as w) {e : HostEvent} {id : SessionId}
    (he : e.alive? = some id) :
    Tallied start plan w₁ (as ++ [.event e]) (w.after (.event e)) := by
  obtain ⟨hdriver, hhost⟩ := LayoutDriver.handle_of_alive h.enabled he w.host
  have hafter : w.after (.event e) = ⟨(w.driver.observe id).1, w.host⟩ := by
    rw [after, hdriver, hhost]
  obtain ⟨s, hs, -, ⟨hidle, hnil, -⟩ | ⟨hphase, -, hknown⟩⟩ := h.live
  · have hfin : s.isFinished = true := Sequencer.isFinished_of_idle hidle hnil
    have hthrough : w.Finished := fun s' hs' => Option.some.inj (hs.symm.trans hs') ▸ hfin
    rw [LayoutDriver.observe_of_finished hs hfin] at hafter
    exact h.still rfl (fun _ _ => .inl hthrough) (by rw [hafter]) (by rw [hafter])
  · have hfin : s.isFinished = false := Sequencer.isFinished_of_waits hphase
    cases hknows : s.knows id with
    | true =>
      have hold : Old start as id := (hknown id).1 (by simpa [Sequencer.knows] using hknows)
      rw [LayoutDriver.observe_of_known hs hfin hknows] at hafter
      refine h.still rfl (fun x hx => .inr ?_) (by rw [hafter]) (by rw [hafter])
      exact Option.some.inj (he.symm.trans hx) ▸ hold
    | false =>
      have hnew : id ∉ s.known := by simpa [Sequencer.knows] using hknows
      rw [LayoutDriver.observe_of_new hs hfin hknows] at hafter
      exact h.hears he rfl hs hphase (mt (hknown id).2 hnew) hafter

/-- **The tally stays right**, whatever happens while the driver is unattended. -/
theorem Tallied.after (h : Tallied start plan w₁ as w) (ha : w.Unattended a) :
    Tallied start plan w₁ (as ++ [a]) (w.after a) := by
  obtain ⟨hquiet, hdetach, hconfigure⟩ := ha
  cases a with
  | turn => exact h.turn
  | detach => exact absurd rfl hdetach
  | configure settings => exact absurd rfl (hconfigure settings)
  | host next => exact h.still rfl (by simp [Happening.alive?]) rfl (hquiet.moves next rfl)
  | start request =>
    obtain ⟨hdriver, hhost⟩ := start_of_not_launches w request
      fun plan hbuild => hquiet.no_launch request plan (.start hbuild)
    have hstays : w.after (.start request) = w := by rw [Scene.after, hdriver, hhost]
    exact h.still rfl (by simp [Happening.alive?]) (by rw [hstays]) (by rw [hstays])
  | event e =>
    cases he : e.alive? with
    | some id => exact h.event_of_alive he
    | none =>
      have hstays := after_event_of_silent he hquiet.no_launch
      refine h.still rfl (fun id hid => ?_) (by rw [hstays]) (by rw [hstays])
      rw [Happening.alive?, he] at hid
      exact absurd hid (by simp)

end Step

/-- **The tally is right** on every run. -/
theorem Traces.tallied {start : H} {plan : Plan} {w₁ w : Scene H} {as : List (Happening H)}
    (hrun : Traces Unattended w₁ as w) (hlaunched : Tallied start plan w₁ [] w₁) :
    Tallied start plan w₁ as w := by
  induction hrun with
  | nil => exact hlaunched
  | snoc _ ha ih => exact ih.after ha

end Scene

open Classical in
/-- **Resumptions, counted.** Let an enabled driver launch a layout, on any host, and then tell it
of any sessions, in any order and any number of times, and give it turns at any moments. A turn
plays on exactly if, since the turn before and with something left to play, a session was named for
the first time that did not have the focus at the start. So the number of resumptions is that of
these turns, and at most that of the sessions that were new. The requests made are one more than the
resumptions, as long as there are splits to make them; and the layout is through exactly when there
have been as many resumptions as it has splits.

**Proof sketch.** The tally is right after the launch, and stays right whatever happens
(`Scene.Tallied.after`). A sequencer that waits has made one request more than it was resumed; one
that has finished has made as many, and has no split left. -/
theorem resumption_accounting {driver : LayoutDriver} {request : LayoutRequest} {plan : Plan}
    {host : H} {a : Happening H} {as : List (Happening H)} {w : Scene H}
    (hon : driver.settings.enabled = true) (hlaunch : Scene.Launches ⟨driver, host⟩ request plan a)
    (hrun : Scene.Traces Scene.Unattended (Scene.after ⟨driver, host⟩ a) as w) :
    let w₁ := Scene.after ⟨driver, host⟩ a
    let first := SessionHost.active host
    let k := w₁.resumptions as
    let splits := plan.queue.countP Instruction.isSplit
    (w.Resumes ↔ w₁.Woken first as) ∧
      k = turnsAfter (w₁.Woken first) [] as ∧
      k ≤ ((named as).toFinset \ first.toFinset).card ∧
      (issued host w.host).length = min splits (k + 1) ∧
      ∃ s, w.driver.sequencer = some s ∧ (s.isFinished = true ↔ k = splits) := by
  intro w₁ first k splits
  have hopen := Scene.Tallied.launched ⟨driver, host⟩ hon request
    (Plan.followedUp_queue hlaunch.build)
  rw [← hlaunch.after_eq] at hopen
  have htally : Scene.Tallied host plan w₁ as w := Scene.Traces.tallied hrun hopen
  have hresumes : w.Resumes ↔ w₁.Woken first as := htally.rested.resumes_iff.trans htally.due_iff
  refine ⟨hresumes, htally.counted, (Nat.le_add_right _ _).trans htally.bounded, ?_⟩
  obtain ⟨s, hs, hsplits, ⟨hidle, hnil, hissued⟩ | ⟨hphase, hissued, -⟩⟩ := htally.live
  · have hthrough : splits = k := by
      rw [hnil, List.countP_nil, Nat.add_zero, hissued] at hsplits
      exact hsplits
    exact ⟨by rw [hissued]; omega, s, hs, fun _ => hthrough.symm,
      fun _ => Sequencer.isFinished_of_idle hidle hnil⟩
  · have hleft : k + 1 ≤ splits := by
      rw [hissued] at hsplits
      exact (Nat.le_add_right _ _).trans_eq hsplits.symm
    refine ⟨by rw [hissued]; omega, s, hs, fun hfin => ?_, fun hk => ?_⟩
    · rw [Sequencer.phase_of_isFinished hfin] at hphase
      exact absurd hphase (by decide)
    · omega

end Tally

/-- Three tabs have been launched, two sessions are announced before a turn, and one of them again
before the next: the first turn plays on and the second does not. -/
theorem resumption_accounting_burst :
    let start : RosterHost := ⟨some ⟨"s0"⟩, [⟨"s0"⟩], [], []⟩
    let w₁ := Scene.after ⟨.new .standard, start⟩ (.start threeTabs)
    let as : List (Happening RosterHost) := [.event (.activated ⟨"s1"⟩),
      .event (.titleChanged ⟨"s2"⟩ "zsh"), .turn, .event (.activated ⟨"s1"⟩), .turn]
    let w := w₁.afterAll as
    Settings.standard.enabled = true ∧
      Scene.Launches ⟨.new .standard, start⟩ threeTabs threeTabsPlan (.start threeTabs) ∧
      Scene.Traces Scene.Unattended w₁ as w ∧ w₁.resumptions as = 1 ∧
      (issued start w.host).length = 2 ∧
      ∃ s, w.driver.sequencer = some s ∧ s.isFinished = false := by
  intro start w₁ as w
  have hlaunch : Scene.Launches ⟨.new .standard, start⟩ threeTabs threeTabsPlan
    (.start threeTabs) := .start build_threeTabs
  have hevent : ∀ (w : Scene RosterHost) {e : HostEvent} {id : SessionId}, e.alive? = some id →
      w.Unattended (.event e) := by
    intro w e id he
    exact ⟨Scene.undisturbed_event he trivial, by simp, by simp⟩
  have hturn : ∀ w : Scene RosterHost, w.Unattended .turn :=
    fun w => ⟨Scene.undisturbed_turn, by simp, by simp⟩
  have hrun : Scene.Traces Scene.Unattended w₁ as w := by
    refine Scene.traces_afterAll w₁ ?_
    simp only [as, List.forall_mem_cons]
    exact ⟨fun w => hevent w rfl, fun w => hevent w rfl, hturn, fun w => hevent w rfl, hturn,
      fun _ hnil => absurd hnil List.not_mem_nil⟩
  have hk : w₁.resumptions as = 1 := by decide
  obtain ⟨-, -, -, hissued, s, hs, hfin⟩ := resumption_accounting rfl hlaunch hrun
  rw [hk] at hissued hfin
  refine ⟨rfl, hlaunch, hrun, hk, hissued, s, hs, ?_⟩
  rw [Bool.eq_false_iff]
  exact fun hyes => absurd (hfin.1 hyes) (by decide)

end PaneLayout
