import TernScheduler.PollingCallback

/-!
# Whether stopping drains the polls

`stopAndWait` waits until no callback is registered.  A callback is registered while its timer
runs, and a poll operation is unsettled after that, so an operation in flight is not waited for.

* `Drains` is what the promise of `stopAndWait` is documented to mean.
* `PollState.Quiet.step` keeps the polling quiet once it was stopped with nothing in flight, and
  `PollState.exists_resolved` resolves the promise before anything settles.
* `stopAndWait_drains_iff` says that all runs on drain exactly when nothing is in flight at the
  call.
-/

namespace TernScheduler

open Stepping

namespace PollState

/-- The promise of a call of `stopAndWait` has resolved. -/
def Resolved (s : PollState) : Prop := .resolved ∈ s.stopPromises

/-- The action starts a poll operation: the first one of a loop, or the one of a timer. -/
def StartsPoll (s : PollState) : PollAction → Prop
  | .pollLoop pollTimes _ => pollTimes ≠ []
  | .timer _ _ => s.polling.isActive = true
  | _ => False

/-- The action starts a loop; without poll times there is none. -/
def StartsLoop : PollAction → Prop
  | .pollLoop pollTimes _ => pollTimes ≠ []
  | _ => False

instance : DecidablePred StartsLoop
  | .pollLoop pollTimes _ => inferInstanceAs (Decidable (pollTimes ≠ []))
  | .stopAndWait _ _ _ => isFalse id
  | .tryIt _ _ => isFalse id
  | .timer _ _ => isFalse id
  | .settle _ _ => isFalse id
  | .react _ => isFalse id
  | .stop => isFalse id

instance (s : PollState) : Decidable s.Resolved :=
  inferInstanceAs (Decidable (StopPromise.resolved ∈ s.stopPromises))

end PollState

/-- Once the promise of `stopAndWait` has resolved, no operation is unsettled, and none is
started. -/
structure Drains (trace : List (PollState × PollAction)) (last : PollState) : Prop where
  settled : ∀ s ∈ Path.states trace last, s.Resolved → s.unsettled = []
  none_started : ∀ p ∈ trace, p.1.Resolved → ¬ p.1.StartsPoll p.2

namespace PollState

section

variable {s next : PollState} {a : PollAction}

@[simp] theorem pollCallback_polling (s : PollState) (index : Nat) (outcome : PollOutcome) :
    (s.pollCallback index outcome).polling = s.polling := by
  unfold pollCallback
  split <;> rfl

@[simp] theorem pollCallback_stopPromises (s : PollState) (index : Nat)
    (outcome : PollOutcome) : (s.pollCallback index outcome).stopPromises = s.stopPromises := by
  unfold pollCallback
  split <;> rfl

@[simp] theorem registerPollCallback_isActive (polling : PollingCallback)
    (delaySeconds loop : Nat) :
    (polling.registerPollCallback delaySeconds loop).isActive = polling.isActive := by
  unfold PollingCallback.registerPollCallback
  split <;> rfl

theorem tryIt_eq_resolved_iff (polling : PollingCallback) (timedOut now : Int) :
    tryIt polling timedOut now = .resolved ↔ polling.activeCount = 0 := by
  unfold tryIt
  by_cases hLeft : polling.activeCount > 0
  · rw [if_pos hLeft]
    refine iff_of_false ?_ (Nat.ne_of_gt hLeft)
    split <;> exact StopPromise.noConfusion
  · rw [if_neg hLeft]
    exact iff_of_true rfl (Nat.eq_zero_of_not_pos hLeft)

/-- What an action can do to the flag, the operations and the promises. -/
structure Effect (s : PollState) (a : PollAction) (next : PollState) : Prop where
  active : next.polling.isActive = true → s.polling.isActive = true
  unsettled : s.StartsPoll a ∨ next.unsettled ⊆ s.unsettled
  promises : next.stopPromises = [] → s.stopPromises = []

/-- An action that leaves the promises alone and does not activate. -/
theorem Effect.of_promises (hActive : next.polling.isActive = s.polling.isActive)
    (hUnsettled : s.StartsPoll a ∨ next.unsettled ⊆ s.unsettled)
    (hPromises : next.stopPromises = s.stopPromises) : Effect s a next where
  active := fun h => hActive ▸ h
  unsettled := hUnsettled
  promises := fun h => hPromises ▸ h

theorem step_effect (hStep : s.step a = some next) : Effect s a next := by
  cases a with
  | pollLoop pollTimes outcome =>
      -- the first poll of a loop is started at once, unless the loop has no times
      cases hLoop : PollLoop.start pollTimes with
      | none =>
          simp only [step, hLoop, Option.some.injEq] at hStep
          subst hStep
          exact .of_promises rfl (Or.inr fun _ h => h) rfl
      | some loop =>
          simp only [step, hLoop, Option.some.injEq] at hStep
          subst hStep
          refine .of_promises (by simp) (Or.inl ?_) (by simp)
          rintro rfl
          cases hLoop
  | timer id outcome =>
      cases hFind : s.polling.runningCallbacks.find? (·.id = id) with
      | none => simp [step, hFind] at hStep
      | some running =>
          simp only [step, hFind, Option.some.injEq] at hStep
          subst hStep
          -- a timer that fires after a stop does not poll
          cases hActive : s.polling.isActive with
          | true => exact .of_promises (by simp [hActive]) (Or.inl hActive) (by simp)
          | false => exact .of_promises (by simp) (Or.inr fun _ h => h) (by simp)
  | settle index fulfilled =>
      cases hAt : s.unsettled[index]? with
      | none => simp [step, hAt] at hStep
      | some operation =>
          simp only [step, hAt, Option.some.injEq] at hStep
          subst hStep
          exact .of_promises rfl (Or.inr (List.eraseIdx_subset ..)) rfl
  | react index =>
      cases hAt : s.fulfilled[index]? with
      | none => simp [step, hAt] at hStep
      | some operation =>
          simp only [step, hAt, Option.some.injEq] at hStep
          subst hStep
          exact .of_promises (by simp) (Or.inr fun _ h => h) rfl
  | stop =>
      obtain rfl := Option.some.inj hStep
      exact ⟨fun h => (nomatch h), Or.inr fun _ h => h, id⟩
  | stopAndWait timeoutSeconds called now =>
      obtain rfl := Option.some.inj hStep
      refine ⟨fun h => (nomatch h), Or.inr fun _ h => h, fun h => ?_⟩
      exact (List.append_eq_nil_iff.mp h).1
  | tryIt index now =>
      cases hAt : s.stopPromises[index]? with
      | none => simp [step, hAt] at hStep
      | some promise =>
          cases promise with
          | resolved => simp [step, hAt] at hStep
          | rejected => simp [step, hAt] at hStep
          | pending timedOut =>
              simp only [step, hAt, Option.some.injEq] at hStep
              subst hStep
              exact ⟨id, Or.inr fun _ h => h, fun h => by simpa using h⟩

/-! ## Enough: nothing in flight -/

/-- Polling was stopped, and no operation is in flight. -/
structure Quiet (s : PollState) : Prop where
  inactive : s.polling.isActive = false
  settled : s.unsettled = []

/-- A stopped polling starts an operation for a new loop only. -/
theorem not_startsPoll (hInactive : s.polling.isActive = false) (hLoop : ¬ StartsLoop a) :
    ¬ s.StartsPoll a := by
  intro hStarts
  cases a with
  | pollLoop pollTimes outcome => exact hLoop hStarts
  | timer id outcome => exact absurd hStarts (Bool.eq_false_iff.mp hInactive)
  | settle index fulfilled => exact hStarts
  | react index => exact hStarts
  | stop => exact hStarts
  | stopAndWait timeoutSeconds called now => exact hStarts
  | tryIt index now => exact hStarts

/-- Without a new loop it stays quiet. -/
theorem Quiet.step (hQuiet : s.Quiet) (hLoop : ¬ StartsLoop a) (hStep : s.step a = some next) :
    next.Quiet := by
  have hEffect := step_effect hStep
  have hSubset := hEffect.unsettled.resolve_left (not_startsPoll hQuiet.inactive hLoop)
  rw [hQuiet.settled] at hSubset
  refine ⟨Bool.eq_false_iff.mpr fun hActive => ?_, List.subset_nil.mp hSubset⟩
  exact absurd (hEffect.active hActive) (Bool.eq_false_iff.mp hQuiet.inactive)

/-! ## Needed: the timers can run out first -/

/-- The timers of a stopped polling can run out while nothing settles. -/
theorem exists_timers_out (count : Nat) : ∀ s : PollState, s.polling.isActive = false →
    s.polling.activeCount = count → ∃ trace last, Path PollState.step s trace last ∧
      (∀ p ∈ trace, ¬ StartsLoop p.2) ∧ last.polling.activeCount = 0 ∧
        last.unsettled = s.unsettled ∧ last.stopPromises = s.stopPromises := by
  induction count using Nat.strongRecOn with
  | _ count ih =>
      intro s hInactive hCount
      cases hCallbacks : s.polling.runningCallbacks with
      | nil =>
          have hNone : s.polling.activeCount = 0 := by
            simp [PollingCallback.activeCount, hCallbacks]
          exact ⟨[], s, .nil s, (fun p hp => by cases hp), hNone, rfl, rfl⟩
      | cons running others =>
          have hFind : s.polling.runningCallbacks.find? (·.id = running.id) = some running := by
            simp [hCallbacks]
          -- the timer of the first callback comes, and there is one callback less
          let fired : PollState := { s with polling := { s.polling with
            runningCallbacks := s.polling.runningCallbacks.filter (·.id ≠ running.id) } }
          have hStep : s.step (.timer running.id .promises) = some fired := by
            simp [PollState.step, hFind, hInactive, fired]
          have hFewer : fired.polling.activeCount < count := by
            rw [← hCount]
            simp only [PollingCallback.activeCount, fired, hCallbacks]
            simp only [List.filter_cons, ne_eq, not_true_eq_false, decide_false,
              Bool.false_eq_true, if_false, List.length_cons]
            exact Nat.lt_succ_of_le (List.length_filter_le ..)
          obtain ⟨trace, last, hPath, hLoops, hNone, hUnsettled, hPromises⟩ :=
            ih _ hFewer fired hInactive rfl
          refine ⟨_, last, .cons hStep hPath, fun p hp => ?_, hNone, hUnsettled, hPromises⟩
          rcases List.mem_cons.mp hp with rfl | hLater
          · exact id
          · exact hLoops p hLater

/-- After a call of `stopAndWait` its promise can resolve before anything settles. -/
theorem exists_resolved (s : PollState) (hFirst : s.stopPromises = []) :
    ∃ rest last, Path PollState.step s ((s, .stopAndWait none 0 0) :: rest) last ∧
      (∀ p ∈ rest, ¬ StartsLoop p.2) ∧ last.Resolved ∧ last.unsettled = s.unsettled := by
  let called : PollState :=
    { s with polling := s.polling.stop, stopPromises := [tryIt s.polling.stop 600000 0] }
  have hCall : s.step (.stopAndWait none 0 0) = some called := by
    simp [PollState.step, hFirst, called, defaultWaitForCompletionSeconds]
  by_cases hNone : s.polling.stop.activeCount = 0
  · refine ⟨[], called, .cons hCall (.nil _), (fun p hp => by cases hp), ?_, rfl⟩
    exact List.mem_singleton.mpr ((tryIt_eq_resolved_iff ..).mpr hNone).symm
  · obtain ⟨trace, out, hPath, hLoops, hCount, hUnsettled, hPromises⟩ :=
      exists_timers_out _ called rfl rfl
    have hPending : out.stopPromises[0]? = some (.pending 600000) := by
      rw [hPromises]
      simp [called, tryIt, Nat.pos_of_ne_zero hNone]
    let looked : PollState :=
      { out with stopPromises := out.stopPromises.set 0 (tryIt out.polling 600000 0) }
    have hLook : out.step (.tryIt 0 0) = some looked := by
      simp [PollState.step, hPending, looked]
    refine ⟨trace ++ [(out, .tryIt 0 0)], looked,
      .cons hCall (hPath.append (.cons hLook (.nil looked))), fun p hp => ?_, ?_, hUnsettled⟩
    · rcases List.mem_append.mp hp with hBefore | hLast
      · exact hLoops p hBefore
      · obtain rfl := List.mem_singleton.mp hLast
        exact id
    · show StopPromise.resolved ∈ out.stopPromises.set 0 (tryIt out.polling 600000 0)
      rw [(tryIt_eq_resolved_iff out.polling 600000 0).mpr hCount]
      exact List.mem_set (List.getElem?_eq_some_iff.mp hPending).1 _

end

end PollState

/-- The run goes on with a call of `stopAndWait`, and no loop is started any more. -/
def StopsForGood : List (PollState × PollAction) → Prop
  | (_, .stopAndWait _ _ _) :: rest => ∀ p ∈ rest, ¬ PollState.StartsLoop p.2
  | _ => False

/-- **Stopping drains the polls** exactly when no poll operation is in flight: of a state that
is reached before `stopAndWait` was called, every run on that goes on with a call of it, and
starts no loop any more, drains if and only if the state has no unsettled operation. -/
theorem stopAndWait_drains_iff {trace : List (PollState × PollAction)} {s : PollState}
    (hPath : Path PollState.step .new trace s) (hFirst : s.stopPromises = []) :
    (∀ rest last, Path PollState.step s rest last → StopsForGood rest →
      Drains (trace ++ rest) last) ↔ s.unsettled = [] := by
  constructor
  · intro hAll
    obtain ⟨rest, last, hRest, hLoops, hResolved, hSame⟩ := PollState.exists_resolved s hFirst
    have hDrains := hAll _ _ hRest hLoops
    exact hSame ▸ hDrains.settled last (List.mem_append_right _ List.mem_cons_self) hResolved
  · intro hSettled rest last hRest hStops
    -- before the call there is no promise
    have hBack : ∀ s a next, PollState.step s a = some next →
        next.stopPromises = [] → s.stopPromises = [] :=
      fun _ _ _ hStep => (PollState.step_effect hStep).promises
    have hBefore := hPath.keeps_back hBack hFirst
    have hUnresolved : ∀ state ∈ Path.states trace s, ¬ state.Resolved := by
      intro state hState hResolved
      rw [PollState.Resolved, hBefore state hState] at hResolved
      cases hResolved
    cases hRest with
    | nil => exact hStops.elim
    | cons hStep hLater =>
        rename_i next action later
        cases action with
        | stopAndWait timeoutSeconds called now =>
            -- from the call on it is quiet
            have hNext : next.Quiet := by
              cases hStep
              exact ⟨rfl, hSettled⟩
            have hQuiet := hLater.keeps (fun s a next (hInv : s.Quiet)
              (hLoop : ¬ PollState.StartsLoop a) hStep => hInv.step hLoop hStep) hNext hStops
            refine ⟨fun state hState hResolved => ?_, fun p hp hResolved => ?_⟩
            · have hSplit : state ∈ Path.states trace s ∨ _ := Path.mem_states_append hState
              rcases hSplit with hOld | hNew
              · exact absurd hResolved (hUnresolved state hOld)
              · rcases List.mem_cons.mp hNew with rfl | hAfter
                · exact hSettled
                · exact (hQuiet state hAfter).settled
            · rcases List.mem_append.mp hp with hOld | hNew
              · exact absurd hResolved (hUnresolved p.1 (hPath.mem_states hOld).1)
              · rcases List.mem_cons.mp hNew with rfl | hAfter
                · exact id
                · exact PollState.not_startsPoll
                    (hQuiet p.1 (hLater.mem_states hAfter).1).inactive (hStops p hAfter)
        | _ => exact hStops.elim

/-- A loop polls once, its operation settles, and the callback of the next poll is
registered. -/
def pollOnce : List PollAction := [.pollLoop [30] .promises, .settle 0 true, .react 0]

/-- Nothing is in flight then, and every run drains that goes on with `stopAndWait`. -/
theorem stopAndWait_drains_once :
    (Path.follow PollState.step .new pollOnce).2.unsettled = [] ∧
      ∀ rest last, Path PollState.step (Path.follow PollState.step .new pollOnce).2 rest last →
        StopsForGood rest →
          Drains ((Path.follow PollState.step .new pollOnce).1 ++ rest) last :=
  ⟨by decide, (stopAndWait_drains_iff (Path.path_follow PollState.step .new pollOnce)
    (by decide)).mpr (by decide)⟩

/-- A loop is started and stopped at once: the promise of `stopAndWait` resolves while the first
poll operation is in flight. -/
theorem stopAndWait_leaves_unsettled :
    ¬ ∀ trace last, Path PollState.step .new trace last → Drains trace last := by
  intro hAll
  have hDrains := hAll _ _ (Path.path_follow PollState.step .new
    [.pollLoop [30] .promises, .stopAndWait none 0 0])
  exact absurd (hDrains.settled _ (List.mem_append_right _ List.mem_cons_self) (by decide))
    (by decide)

end TernScheduler
