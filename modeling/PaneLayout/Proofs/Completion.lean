import Mathlib.Data.Fintype.EquivFin
import PaneLayout.Proofs.Rest
import PaneLayout.Proofs.SingleFlight

set_option autoImplicit false

/-!
# Playing a layout to its end

A host with a roster can answer every request by a session with a new name. If the driver is told of
each of them and then given a turn, the layout is played to its end.

## Main results

* `PaneLayout.exists_fresh` — there is always a new name.
* `PaneLayout.RosterHost.exists_round` — one request is answered, and the layout is played on.
* `PaneLayout.RosterHost.exists_finished` — every sequencer that waits can be brought to its end.
* `PaneLayout.RosterHost.exists_finished_of_launched` — every layout can be.
-/

namespace PaneLayout

open LoggedHost AnsweringHost CooperativeHost

instance : Infinite SessionId := Infinite.of_injective SessionId.mk fun _ _ h => by simpa using h

/-- There is always a session name that has not been used. -/
theorem exists_fresh (ids : List SessionId) : ∃ id, id ∉ ids := by
  obtain ⟨id, hid⟩ := Infinite.exists_notMem_finset ids.toFinset
  exact ⟨id, by simpa using hid⟩

namespace RosterHost

variable {heard : SessionId → Prop} {start : RosterHost} {w₁ w : Scene RosterHost} {s : Sequencer}

/-- The session that has been created is the last one. -/
theorem sessions_create (host : RosterHost) (id : SessionId) :
    sessions (host.create id) = sessions host ++ [id] :=
  (List.append_assoc _ _ _).symm

/-- **One round.** The host answers the request that is open by a session with a new name, the
driver is told of it, and a turn plays the sequencer on. -/
theorem exists_round (hstart : requests start = [])
    (hrun : Scene.Reaches (Scene.Undisturbed Serves (Scene.Notified start heard)) w₁ w)
    (hs : w.driver.sequencer = some s) (hphase : s.phase = .awaitingSession)
    (hopen : (AnsweringHost.created w.host).length < (requests w.host).length)
    (hknown : s.known ⊆ sessions w.host) :
    ∃ id, let play := Sequencer.run { s with known := id :: s.known } (w.host.create id)
      Scene.Reaches (Scene.Undisturbed Serves (Scene.Notified start heard)) w₁
        ⟨⟨.standard, some play.sequencer, false⟩, play.host⟩ := by
  obtain ⟨id, hid⟩ := exists_fresh (sessions w.host)
  have hcreate : Scene.Reaches (Scene.Undisturbed Serves (Scene.Notified start heard)) w₁
      ⟨w.driver, w.host.create id⟩ := hrun.step (Scene.undisturbed_host (serves_create hopen hid))
  have hown : id ∈ own start (w.host.create id) := by
    rw [own, hstart, List.length_nil, List.drop_zero]
    exact List.mem_append_right _ (List.mem_singleton_self id)
  have hheard := hcreate.notified hs hphase (fun hmem => hid (hknown hmem))
    ⟨List.mem_append_right _ (List.mem_of_mem_drop hown), .inl hown⟩
  have hturn := hheard.step Scene.undisturbed_turn
  let told : LayoutDriver := ⟨.standard, some { s with known := id :: s.known }, true⟩
  have hs : told.sequencer = some { s with known := id :: s.known } := rfl
  have hplay := LayoutDriver.runScheduled_of_due hs rfl hphase (w.host.create id)
  rw [Scene.after, hplay] at hturn
  exact ⟨id, hturn⟩

/-- **To the end.** Round by round, a sequencer that waits is played to its end.

**Proof sketch.** Induction on the number of splits that are left: a round plays one of them and
waits again, or comes to the end. -/
theorem exists_finished (hstart : requests start = [])
    (hrun : Scene.Reaches (Scene.Undisturbed Serves (Scene.Notified start heard)) w₁ w)
    (hs : w.driver.sequencer = some s) (hphase : s.phase = .awaitingSession)
    (hopen : (AnsweringHost.created w.host).length < (requests w.host).length)
    (hknown : s.known ⊆ sessions w.host) :
    ∃ w' s', Scene.Reaches (Scene.Undisturbed Serves (Scene.Notified start heard)) w₁ w' ∧
      w'.driver.sequencer = some s' ∧ s'.isFinished = true := by
  induction hleft : s.queue.countP Instruction.isSplit using Nat.strong_induction_on
    generalizing w s with
  | _ left ih =>
    obtain ⟨id, hround⟩ := exists_round hstart hrun hs hphase hopen hknown
    set s₁ : Sequencer := { s with known := id :: s.known }
    have hplay := s₁.run_executes (w.host.create id)
    rcases hplay.countP_cases with ⟨hwaits, hone⟩ | ⟨hidle, hnil, -⟩
    · have hcreated : AnsweringHost.created (s₁.run (w.host.create id)).host =
          AnsweringHost.created w.host ++ [id] := created_run s₁ (w.host.create id)
      have hrequests := s₁.requests_run (w.host.create id)
      have hgrows : Grows (w.host.create id) (s₁.run (w.host.create id)).host :=
        (s₁.run_answering (w.host.create id)).2.1
      refine ih _ ?_ hround rfl hwaits ?_ ?_ rfl
      · rw [← hleft, show s.queue = s₁.queue from rfl, hplay.queue_eq, List.countP_append, hone]
        omega
      · rw [hcreated, hrequests, List.length_append, List.length_append,
          Instruction.length_filterMap_request?, hone]
        exact Nat.succ_lt_succ hopen
      · rw [hplay.known_eq]
        refine List.Subset.trans ?_ hgrows.sessions
        rw [sessions_create]
        exact List.cons_subset.2 ⟨by simp, fun x hx => List.mem_append_left _ (hknown hx)⟩
    · exact ⟨_, _, hround, rfl, Sequencer.isFinished_of_idle hidle hnil⟩

/-- **Every layout can be played to its end**, from a host without any requests so far. -/
theorem exists_finished_of_launched (driver : LayoutDriver) {host : RosterHost}
    (hstart : requests host = []) (hcreated : AnsweringHost.created host = [])
    (hactive : ∀ id, SessionHost.active host = some id → id ∈ sessions host)
    (request : LayoutRequest) (plan : Plan) (heard : SessionId → Prop) :
    ∃ w s, Scene.Reaches (Scene.Undisturbed Serves (Scene.Notified host heard))
        (Scene.launched ⟨driver, host⟩ request plan) w ∧
      w.driver.sequencer = some s ∧ s.isFinished = true := by
  let fresh := driver.fresh plan request.cwd (SessionHost.active host)
  have hplay := fresh.run_executes host
  rcases hplay.countP_cases with ⟨hwaits, hone⟩ | ⟨hidle, hnil, -⟩
  · refine exists_finished hstart .refl rfl hwaits ?_ ?_
    · have hnone : AnsweringHost.created (fresh.run host).host = [] :=
        (created_run fresh host).trans hcreated
      have hrequests := fresh.requests_run host
      change (AnsweringHost.created (fresh.run host).host).length <
        (requests (fresh.run host).host).length
      rw [hnone, hrequests, List.length_append, Instruction.length_filterMap_request?, hone]
      exact Nat.succ_pos _
    · rw [show (fresh.run host).sequencer.known = _ from hplay.known_eq]
      intro id hid
      exact (fresh.run_answering host).2.1.sessions (hactive id (Option.mem_toList.1 hid))
  · exact ⟨_, _, .refl, rfl, Sequencer.isFinished_of_idle hidle hnil⟩

end RosterHost

end PaneLayout
