import TernScheduler.Properties.PollLoops

/-!
# How long a polling loop waits

A loop of `pollLoop` closes over its poll times and the index of the next one, and each poll
operation over the time until the next poll.  So a loop waits for its poll times in turn,
whatever the timers and the promises of the others do in between.

* `InRotation` is what every action carries on.
* `loop_waits_in_rotation`: the waits of a loop are the poll times it was created with, from the
  first on, over and over.
-/

namespace TernScheduler

open Stepping

/-- The `k`-th poll time of a loop, from the first on, over and over. -/
def PollLoop.time (loop : PollLoop) (k : Nat) : Nat :=
  loop.pollTimes.get ⟨k % loop.pollTimes.length, Nat.mod_lt _ (Nat.zero_lt_of_lt loop.inRange)⟩

namespace PollState

/-- The loop an action registers a callback for, and the delay of its timer. -/
def registers (s : PollState) : PollAction → Option (Nat × Nat)
  | .react index =>
      if s.polling.isActive then
        s.fulfilled[index]?.map fun operation => (operation.loop, operation.pollTime)
      else none
  | _ => none

/-- The delays a loop has registered its callback with, the first one first. -/
def waits (trace : List (PollState × PollAction)) (loop : Nat) : List Nat :=
  trace.filterMap fun p => (p.1.registers p.2).bind fun wait =>
    if wait.1 = loop then some wait.2 else none

/-- The loop has polled as often as it has waited. -/
def Waiting (s : PollState) (delays : List Nat) (index : Nat) : Prop :=
  ∃ loop, s.loops[index]? = some loop ∧
    loop.pollIndex = delays.length % loop.pollTimes.length

/-- The loop has polled once more than it has waited, and the operation is its last poll. -/
def Polling (s : PollState) (delays : List Nat) (operation : PollOperation) : Prop :=
  ∃ loop, s.loops[operation.loop]? = some loop ∧
    operation.pollTime = loop.time delays.length ∧
      loop.pollIndex = (delays.length + 1) % loop.pollTimes.length

/-- Every loop has waited for its poll times in rotation. -/
structure InRotation (trace : List (PollState × PollAction)) (s : PollState) : Prop where
  single : s.Single
  running : ∀ running ∈ s.polling.runningCallbacks,
    s.Waiting (waits trace running.loop) running.loop
  operations : ∀ operation, operation ∈ s.unsettled ∨ operation ∈ s.fulfilled →
    s.Polling (waits trace operation.loop) operation
  rotation : ∀ index loop, s.loops[index]? = some loop →
    waits trace index = (List.range (waits trace index).length).map loop.time
  fresh : ∀ index, s.loops.length ≤ index → waits trace index = []

section

variable {trace : List (PollState × PollAction)} {s next : PollState} {a : PollAction}
  {index : Nat}

theorem waits_append (trace : List (PollState × PollAction)) (s : PollState) (a : PollAction)
    (index : Nat) :
    waits (trace ++ [(s, a)]) index = waits trace index ++
      ((s.registers a).bind fun wait => if wait.1 = index then some wait.2 else none).toList := by
  unfold waits
  rw [List.filterMap_append]
  congr 1

theorem waits_of_none (hNone : s.registers a = none) :
    waits (trace ++ [(s, a)]) index = waits trace index := by
  rw [waits_append, hNone, Option.bind_none, Option.toList_none, List.append_nil]

/-- A wait is one of its own loop. -/
theorem waits_of_some {wait : Nat × Nat} (hWait : s.registers a = some wait) :
    waits (trace ++ [(s, a)]) index =
      if wait.1 = index then waits trace index ++ [wait.2] else waits trace index := by
  rw [waits_append, hWait, Option.bind_some]
  split
  · rfl
  · exact List.append_nil _

/-- A registered callback and an operation are of different loops. -/
theorem Single.apart (hSingle : s.Single) {running : RunningCallback} {operation : PollOperation}
    (hRunning : running ∈ s.polling.runningCallbacks)
    (hOperation : operation ∈ s.unsettled ∨ operation ∈ s.fulfilled) :
    running.loop ≠ operation.loop := by
  refine (List.nodup_append.mp hSingle.nodup).2.2 _ (List.mem_map_of_mem hRunning) _ ?_
  rcases hOperation with hUnsettled | hFulfilled
  · exact List.mem_append_left _ (List.mem_map_of_mem hUnsettled)
  · exact List.mem_append_right _ (List.mem_map_of_mem hFulfilled)

theorem Single.running_eq (hSingle : s.Single) {running running' : RunningCallback}
    (hRunning : running ∈ s.polling.runningCallbacks)
    (hRunning' : running' ∈ s.polling.runningCallbacks) (hLoop : running.loop = running'.loop) :
    running = running' :=
  List.inj_on_of_nodup_map (List.nodup_append.mp hSingle.nodup).1 hRunning hRunning' hLoop

/-- Another operation is of another loop than a fulfilled one. -/
theorem Single.operation_ne (hSingle : s.Single) {operation other : PollOperation}
    (hAt : s.fulfilled[index]? = some operation)
    (hOther : other ∈ s.unsettled ∨ other ∈ s.fulfilled.eraseIdx index) :
    other.loop ≠ operation.loop := by
  obtain ⟨-, hFulfilled, hApart⟩ := List.nodup_append.mp (List.nodup_append.mp hSingle.nodup).2.1
  rcases hOther with hUnsettled | hLeft
  · exact hApart _ (List.mem_map_of_mem hUnsettled) _
      (List.mem_map_of_mem (List.mem_of_getElem? hAt))
  · intro hSame
    exact (List.nodup_cons.mp ((perm_of_getElem? hAt).nodup_iff.mp hFulfilled)).1
      (hSame ▸ List.mem_map_of_mem hLeft)

/-- An action that changes no loop and registers nothing. -/
theorem InRotation.same (hBefore : InRotation trace s) (hStep : s.step a = some next)
    (hNone : s.registers a = none) (hLoops : next.loops = s.loops)
    (hRunning : next.polling.runningCallbacks ⊆ s.polling.runningCallbacks)
    (hOperations : ∀ operation, operation ∈ next.unsettled ∨ operation ∈ next.fulfilled →
      operation ∈ s.unsettled ∨ operation ∈ s.fulfilled) :
    InRotation (trace ++ [(s, a)]) next where
  single := hBefore.single.step hStep
  running running hMem := by
    rw [waits_of_none hNone, Waiting, hLoops]
    exact hBefore.running running (hRunning hMem)
  operations operation hMem := by
    rw [waits_of_none hNone, Polling, hLoops]
    exact hBefore.operations operation (hOperations operation hMem)
  rotation index loop hLoop := by
    rw [waits_of_none hNone]
    exact hBefore.rotation index loop (hLoops ▸ hLoop)
  fresh index hIndex := by
    rw [waits_of_none hNone]
    exact hBefore.fresh index (hLoops ▸ hIndex)

/-- A loop that is started has not waited yet. -/
theorem InRotation.pollLoop (hBefore : InRotation trace s) {pollTimes : List Nat}
    {outcome : PollOutcome} (hStep : s.step (.pollLoop pollTimes outcome) = some next) :
    InRotation (trace ++ [(s, .pollLoop pollTimes outcome)]) next := by
  have hSingle := hBefore.single.step hStep
  cases hLoop : PollLoop.start pollTimes with
  | none =>
      have hSame : next = s := by simpa [step, hLoop] using hStep.symm
      subst hSame
      exact hBefore.same hStep rfl rfl (fun _ h => h) fun _ h => h
  | some started =>
      have hIndex : started.pollIndex = 0 := by
        unfold PollLoop.start at hLoop
        split at hLoop
        · obtain rfl := Option.some.inj hLoop
          rfl
        · cases hLoop
      simp only [step, hLoop, pollCallback, List.getElem?_concat_length, Option.some.injEq] at hStep
      have hLoops : next.loops = s.loops ++ [started.next] := by
        subst hStep
        simp
      have hPolling : next.polling = s.polling := by rw [← hStep]
      have hFulfilled : next.fulfilled = s.fulfilled := by rw [← hStep]
      -- The other loops are as they were.
      have hOld : ∀ {index : Nat} {loop : PollLoop}, s.loops[index]? = some loop →
          next.loops[index]? = some loop := by
        intro index loop hAt
        rw [hLoops, List.getElem?_append_left (List.getElem?_eq_some_iff.mp hAt).1, hAt]
      constructor
      · exact hSingle
      · intro running hMem
        rw [waits_of_none rfl]
        obtain ⟨loop, hAt, hPoll⟩ := hBefore.running running (hPolling ▸ hMem)
        exact ⟨loop, hOld hAt, hPoll⟩
      · intro operation hMem
        rw [waits_of_none rfl]
        by_cases hWas : operation ∈ s.unsettled ∨ operation ∈ s.fulfilled
        · obtain ⟨loop, hAt, hPoll⟩ := hBefore.operations operation hWas
          exact ⟨loop, hOld hAt, hPoll⟩
        · have hNew : operation = ⟨s.loops.length, started.pollTime⟩ := by
            rw [hFulfilled] at hMem
            cases outcome with
            | throws =>
                rw [← hStep] at hMem
                exact absurd hMem hWas
            | promises =>
                rw [← hStep] at hMem
                rcases hMem with hUnsettled | hSame
                · rcases List.mem_append.mp hUnsettled with hSame | hAdded
                  · exact absurd (Or.inl hSame) hWas
                  · exact List.mem_singleton.mp hAdded
                · exact absurd (Or.inr hSame) hWas
          subst hNew
          refine ⟨started.next, ?_, ?_, ?_⟩
          · rw [hLoops, List.getElem?_concat_length]
          · rw [hBefore.fresh _ (Nat.le_refl _)]
            simp [PollLoop.pollTime, PollLoop.time, PollLoop.next, hIndex]
          · rw [hBefore.fresh _ (Nat.le_refl _)]
            simp [PollLoop.next, hIndex]
      · intro index loop hAt
        rw [waits_of_none rfl]
        by_cases hLess : index < s.loops.length
        · refine hBefore.rotation index loop ?_
          rwa [hLoops, List.getElem?_append_left hLess] at hAt
        · rw [hBefore.fresh index (Nat.not_lt.mp hLess)]
          rfl
      · intro index hLess
        rw [waits_of_none rfl]
        refine hBefore.fresh index ?_
        rw [hLoops, List.length_append] at hLess
        exact Nat.le_of_succ_le hLess

/-- The callback of a timer polls, at the next poll time. -/
theorem InRotation.timer (hBefore : InRotation trace s) {id : Nat} {outcome : PollOutcome}
    (hStep : s.step (.timer id outcome) = some next) :
    InRotation (trace ++ [(s, .timer id outcome)]) next := by
  have hSingle := hBefore.single.step hStep
  cases hFind : s.polling.runningCallbacks.find? (·.id = id) with
  | none => simp [step, hFind] at hStep
  | some called =>
      obtain ⟨hCalled, rfl⟩ := mem_of_find hFind
      obtain ⟨polled, hPolled, hTurn⟩ := hBefore.running called hCalled
      -- the callbacks that are left were registered before, and are of other loops
      have hLeft : ∀ running ∈ next.polling.runningCallbacks,
          running ∈ s.polling.runningCallbacks ∧ running.id ≠ called.id := by
        intro running hMem
        simp only [step, hFind, Option.some.injEq] at hStep
        rw [← hStep] at hMem
        obtain ⟨hIn, hId⟩ := List.mem_filter.mp hMem
        refine ⟨?_, by simpa using hId⟩
        split at hIn
        · rwa [pollCallback_polling] at hIn
        · exact hIn
      cases hActive : s.polling.isActive with
      | false =>
          have hNext := hStep
          simp only [step, hFind, hActive, Bool.false_eq_true, if_false, Option.some.injEq]
            at hNext
          exact hBefore.same hStep rfl (by rw [← hNext])
            (fun running hMem => (hLeft running hMem).1)
            fun operation hMem => by rwa [← hNext] at hMem
      | true =>
          simp only [step, hFind, hActive, if_true, pollCallback, hPolled, Option.some.injEq]
            at hStep
          have hLoops : next.loops = s.loops.set called.loop polled.next := by rw [← hStep]
          have hLess := (List.getElem?_eq_some_iff.mp hPolled).1
          have hOther : ∀ {index : Nat}, index ≠ called.loop →
              next.loops[index]? = s.loops[index]? := by
            intro index hNe
            rw [hLoops, List.getElem?_set_ne hNe.symm]
          constructor
          · exact hSingle
          · intro running hMem
            obtain ⟨hOld, hId⟩ := hLeft running hMem
            have hNe : running.loop ≠ called.loop := fun hSame =>
              hId (congrArg _ (hBefore.single.running_eq hOld hCalled hSame))
            rw [waits_of_none rfl, Waiting, hOther hNe]
            exact hBefore.running running hOld
          · intro operation hMem
            rw [waits_of_none rfl]
            by_cases hWas : operation ∈ s.unsettled ∨ operation ∈ s.fulfilled
            · rw [Polling, hOther (hBefore.single.apart hCalled hWas).symm]
              exact hBefore.operations operation hWas
            · -- the loop polls once more, with its next time
              have hNew : operation = ⟨called.loop, polled.pollTime⟩ := by
                rw [← hStep] at hMem
                cases outcome with
                | throws => exact absurd hMem hWas
                | promises =>
                    rcases hMem with hUnsettled | hSame
                    · rcases List.mem_append.mp hUnsettled with hSame | hAdded
                      · exact absurd (Or.inl hSame) hWas
                      · exact List.mem_singleton.mp hAdded
                    · exact absurd (Or.inr hSame) hWas
              subst hNew
              refine ⟨polled.next, ?_, ?_, ?_⟩
              · rw [hLoops, List.getElem?_set_self hLess]
              · simp [PollLoop.pollTime, PollLoop.time, PollLoop.next, hTurn]
              · simp [PollLoop.next, hTurn]
          · intro index loop hAt
            rw [waits_of_none rfl]
            by_cases hSame : index = called.loop
            · subst hSame
              rw [hLoops, List.getElem?_set_self hLess] at hAt
              obtain rfl := Option.some.inj hAt
              exact hBefore.rotation _ polled hPolled
            · rw [hOther hSame] at hAt
              exact hBefore.rotation index loop hAt
          · intro index hIndex
            rw [waits_of_none rfl]
            refine hBefore.fresh index ?_
            rwa [hLoops, List.length_set] at hIndex

/-- The reaction registers the callback of its loop, with the time of the poll. -/
theorem InRotation.react (hBefore : InRotation trace s) {index : Nat}
    (hStep : s.step (.react index) = some next) :
    InRotation (trace ++ [(s, .react index)]) next := by
  have hSingle := hBefore.single.step hStep
  cases hAt : s.fulfilled[index]? with
  | none => simp [step, hAt] at hStep
  | some operation =>
      have hFulfilled : operation ∈ s.fulfilled := List.mem_of_getElem? hAt
      obtain ⟨polled, hPolled, hTime, hTurn⟩ := hBefore.operations operation (Or.inr hFulfilled)
      simp only [step, hAt, Option.some.injEq] at hStep
      cases hActive : s.polling.isActive with
      | false =>
          have hSame : s.polling.registerPollCallback operation.pollTime operation.loop =
              s.polling := by simp [PollingCallback.registerPollCallback, hActive]
          refine hBefore.same (by simp [PollState.step, hAt, hStep]) (by simp [registers, hActive])
            (by rw [← hStep]) (by rw [← hStep]; simp [hSame]) fun other hMem => ?_
          rw [← hStep] at hMem
          exact hMem.imp_right fun hLeft => List.mem_of_mem_eraseIdx hLeft
      | true =>
          -- the time of the poll becomes one more wait of its loop
          have hWait : s.registers (.react index) = some (operation.loop, operation.pollTime) := by
            simp [registers, hActive, hAt]
          have hRegistered : next.polling.runningCallbacks = s.polling.runningCallbacks ++
              [⟨s.polling.count, operation.pollTime, operation.loop⟩] := by
            rw [← hStep]
            simp [PollingCallback.registerPollCallback, hActive]
          have hLoops : next.loops = s.loops := by rw [← hStep]
          constructor
          · exact hSingle
          · intro running hMem
            rw [hRegistered] at hMem
            rw [waits_of_some hWait, Waiting, hLoops]
            rcases List.mem_append.mp hMem with hOld | hNew
            · rw [if_neg (hBefore.single.apart hOld (Or.inr hFulfilled)).symm]
              exact hBefore.running running hOld
            · obtain rfl := List.mem_singleton.mp hNew
              refine ⟨polled, hPolled, ?_⟩
              simpa using hTurn
          · intro other hMem
            have hOther : other ∈ s.unsettled ∨ other ∈ s.fulfilled.eraseIdx index := by
              rwa [← hStep] at hMem
            rw [waits_of_some hWait, Polling, hLoops,
              if_neg (hBefore.single.operation_ne hAt hOther).symm]
            exact hBefore.operations other
              (hOther.imp_right fun hLeft => List.mem_of_mem_eraseIdx hLeft)
          · intro other loop hLoop
            rw [hLoops] at hLoop
            rw [waits_of_some hWait]
            split
            · rename_i hSame
              subst hSame
              obtain rfl : polled = loop := Option.some.inj (hPolled.symm.trans hLoop)
              rw [List.length_append, List.length_singleton, List.range_succ, List.map_append,
                ← hBefore.rotation _ polled hPolled, List.map_singleton, hTime]
            · exact hBefore.rotation other loop hLoop
          · intro other hLess
            rw [hLoops] at hLess
            rw [waits_of_some hWait, if_neg]
            · exact hBefore.fresh other hLess
            · rintro rfl
              exact absurd (List.getElem?_eq_some_iff.mp hPolled).1 (Nat.not_lt.mpr hLess)

/-- **Step lemma.**  Every action keeps the loops in rotation. -/
theorem InRotation.step (hBefore : InRotation trace s) (hStep : s.step a = some next) :
    InRotation (trace ++ [(s, a)]) next := by
  cases a with
  | pollLoop pollTimes outcome => exact hBefore.pollLoop hStep
  | timer id outcome => exact hBefore.timer hStep
  | settle index fulfilled =>
      cases hAt : s.unsettled[index]? with
      | none => simp [PollState.step, hAt] at hStep
      | some operation =>
          have hNext := hStep
          simp only [PollState.step, hAt, Option.some.injEq] at hNext
          refine hBefore.same hStep rfl (by rw [← hNext]) (by rw [← hNext]; exact fun _ h => h)
            fun other hMem => ?_
          rw [← hNext] at hMem
          -- an operation that settles is one of the unsettled ones
          rcases hMem with hLeft | hSettled
          · exact Or.inl (List.mem_of_mem_eraseIdx hLeft)
          · split at hSettled
            · rcases List.mem_append.mp hSettled with hOld | hNew
              · exact Or.inr hOld
              · obtain rfl := List.mem_singleton.mp hNew
                exact Or.inl (List.mem_of_getElem? hAt)
            · exact Or.inr hSettled
  | react index => exact hBefore.react hStep
  | stop =>
      have hNext := Option.some.inj hStep
      exact hBefore.same hStep rfl (by rw [← hNext]) (by rw [← hNext]; exact fun _ h => h)
        fun other hMem => by rwa [← hNext] at hMem
  | stopAndWait timeoutSeconds called now =>
      have hNext := Option.some.inj hStep
      exact hBefore.same hStep rfl (by rw [← hNext]) (by rw [← hNext]; exact fun _ h => h)
        fun other hMem => by rwa [← hNext] at hMem
  | tryIt index now =>
      have hNext := hStep
      simp only [PollState.step] at hNext
      split at hNext
      · have hSame := Option.some.inj hNext
        exact hBefore.same hStep rfl (by rw [← hSame]) (by rw [← hSame]; exact fun _ h => h)
          fun other hMem => by rwa [← hSame] at hMem
      · cases hNext

/-- The poll times of the loop that an action creates, if it creates one. -/
def creates : PollAction → Option (List Nat)
  | .pollLoop pollTimes _ => if pollTimes = [] then none else some pollTimes
  | _ => none

/-- The poll times that loops were created with, the first loop first. -/
def created (trace : List (PollState × PollAction)) : List (List Nat) :=
  trace.filterMap fun p => creates p.2

/-- A poll turns to the next time of its loop. -/
theorem pollTimes_pollCallback (s : PollState) (index : Nat) (outcome : PollOutcome) :
    (s.pollCallback index outcome).loops.map (·.pollTimes) = s.loops.map (·.pollTimes) := by
  unfold pollCallback
  split
  · rfl
  · rename_i loop hLoop
    obtain ⟨hIndex, rfl⟩ := List.getElem?_eq_some_iff.mp hLoop
    refine List.ext_getElem? fun other => ?_
    by_cases hOther : other = index
    · subst hOther
      simp [hIndex, PollLoop.next]
    · simp [List.getElem?_set_ne (Ne.symm hOther)]

/-- **Step lemma.**  A loop is created by `pollLoop` only, and keeps its poll times. -/
theorem pollTimes_step (hStep : s.step a = some next) :
    next.loops.map (·.pollTimes) = s.loops.map (·.pollTimes) ++ (creates a).toList := by
  cases a with
  | pollLoop pollTimes outcome =>
      cases hLoop : PollLoop.start pollTimes with
      | none =>
          simp only [step, hLoop, Option.some.injEq] at hStep
          subst hStep
          have hTimes : pollTimes = [] := by
            simpa [PollLoop.start, List.length_pos_iff] using hLoop
          simp [creates, hTimes]
      | some loop =>
          simp only [step, hLoop, Option.some.injEq] at hStep
          subst hStep
          have hTimes : pollTimes ≠ [] := by
            rintro rfl
            cases hLoop
          have hStarts : loop.pollTimes = pollTimes := by
            simp only [PollLoop.start, List.length_pos_iff.mpr hTimes, dite_true,
              Option.some.injEq] at hLoop
            rw [← hLoop]
          rw [pollTimes_pollCallback]
          simp [creates, hTimes, hStarts]
  | timer id outcome =>
      simp only [step] at hStep
      split at hStep
      · cases hStep
      · obtain rfl := Option.some.inj hStep
        simp only [creates, Option.toList_none, List.append_nil]
        split
        · exact pollTimes_pollCallback ..
        · rfl
  | settle index fulfilled =>
      simp only [step] at hStep
      split at hStep
      · cases hStep
      · obtain rfl := Option.some.inj hStep
        simp [creates]
  | react index =>
      simp only [step] at hStep
      split at hStep
      · cases hStep
      · obtain rfl := Option.some.inj hStep
        simp [creates]
  | stop =>
      obtain rfl := Option.some.inj hStep
      simp [creates]
  | stopAndWait timeoutSeconds called now =>
      obtain rfl := Option.some.inj hStep
      simp [creates]
  | tryIt index now =>
      simp only [step] at hStep
      split at hStep
      · obtain rfl := Option.some.inj hStep
        simp [creates]
      · cases hStep

/-- The loops have the poll times they were created with. -/
def AsCreated (trace : List (PollState × PollAction)) (s : PollState) : Prop :=
  s.loops.map (·.pollTimes) = created trace

theorem AsCreated.step (hBefore : AsCreated trace s) (hStep : s.step a = some next) :
    AsCreated (trace ++ [(s, a)]) next := by
  have hNext := pollTimes_step hStep
  rw [hBefore] at hNext
  rw [AsCreated, hNext, created, created, List.filterMap_append]
  cases hCreates : creates a <;> simp [hCreates]

theorem inRotation_new : InRotation [] .new where
  single := single_new
  running _ hMem := nomatch hMem
  operations _ hMem := hMem.elim (nomatch ·) (nomatch ·)
  rotation index loop hAt := by cases hAt
  fresh _ _ := rfl

end

end PollState

/-- **A loop waits for its poll times in rotation**: each loop was created by one `pollLoop`, and
the delays it has registered its callback with are the poll times of that call, from the first
on, over and over. -/
theorem loop_waits_in_rotation {trace : List (PollState × PollAction)} {last : PollState}
    (hPath : Path PollState.step .new trace last) :
    last.loops.map (·.pollTimes) = PollState.created trace ∧
      ∀ (index : Nat) (loop : PollLoop), last.loops[index]? = some loop →
        PollState.waits trace index =
          (List.range (PollState.waits trace index).length).map loop.time := by
  constructor
  · exact hPath.carries (fun _ _ _ _ hBefore hStep => PollState.AsCreated.step hBefore hStep)
      (show PollState.AsCreated [] .new from rfl)
  · exact (hPath.carries (fun _ _ _ _ hBefore hStep => hBefore.step hStep)
      PollState.inRotation_new).rotation

/-- The second loop of `twoLoops` has waited for ten seconds and for twenty. -/
theorem loop_waits_twoLoops :
    PollState.waits (Path.follow PollState.step .new twoLoops).1 1 = [10, 20] ∧
      (Path.follow PollState.step .new twoLoops).2.loops.map (·.pollTimes) =
        PollState.created (Path.follow PollState.step .new twoLoops).1 ∧
      ∀ (index : Nat) (loop : PollLoop),
        (Path.follow PollState.step .new twoLoops).2.loops[index]? = some loop →
          PollState.waits (Path.follow PollState.step .new twoLoops).1 index =
            (List.range (PollState.waits (Path.follow PollState.step .new twoLoops).1
              index).length).map loop.time :=
  ⟨by decide, loop_waits_in_rotation (Path.path_follow PollState.step .new twoLoops)⟩

end TernScheduler
