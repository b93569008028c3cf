import TernScheduler.Properties.StopDrains
import Mathlib.Data.List.Nodup
import Mathlib.Data.List.Perm.Basic

/-!
# The life of a polling loop

A loop of `pollLoop` is held up by one thing at a time: a registered callback, or a poll
operation that is under way.  It never polls twice at once, however the timers and the
promises of all loops are interleaved.

* `tokens` lists the loops that something is under way for, and `TokenStep` is what an action
  does to it.
* `loop_over_iff`: exactly when a poll of it threw or was rejected, or the polling was stopped
  before its timer or its reaction came, a loop is over; otherwise one thing is under way.
-/

namespace TernScheduler

open Stepping

namespace PollState

/-! ## What is under way -/

/-- The loops that a callback is registered for, or an operation is under way for. -/
def tokens (s : PollState) : List Nat :=
  s.polling.runningCallbacks.map (·.loop) ++
    (s.unsettled.map (·.loop) ++ s.fulfilled.map (·.loop))

/-- The action ends the loop: a poll of it throws or is rejected, or its timer or its reaction
comes after a stop. -/
inductive Ends (loop : Nat) (s : PollState) : PollAction → Prop
  | started (pollTimes : List Nat) (hTimes : pollTimes ≠ []) (hLoop : s.loops.length = loop) :
      Ends loop s (.pollLoop pollTimes .throws)
  | polled (id : Nat) (outcome : PollOutcome) (running : RunningCallback)
      (hFind : s.polling.runningCallbacks.find? (·.id = id) = some running)
      (hLoop : running.loop = loop) (hEnd : s.polling.isActive = false ∨ outcome = .throws) :
      Ends loop s (.timer id outcome)
  | rejected (index : Nat) (operation : PollOperation)
      (hAt : s.unsettled[index]? = some operation) (hLoop : operation.loop = loop) :
      Ends loop s (.settle index false)
  | stopped (index : Nat) (operation : PollOperation)
      (hAt : s.fulfilled[index]? = some operation) (hLoop : operation.loop = loop)
      (hStopped : s.polling.isActive = false) :
      Ends loop s (.react index)

/-- What an action does to the loops that something is under way for. -/
inductive TokenStep (s : PollState) (a : PollAction) (next : PollState) : Prop
  | kept (hPerm : next.tokens.Perm s.tokens) (hLoops : next.loops.length = s.loops.length)
      (hStays : ∀ loop, ¬ Ends loop s a) : TokenStep s a next
  | started (hPerm : next.tokens.Perm (s.loops.length :: s.tokens))
      (hLoops : next.loops.length = s.loops.length + 1) (hStays : ∀ loop, ¬ Ends loop s a) :
      TokenStep s a next
  | stillborn (hPerm : next.tokens.Perm s.tokens)
      (hLoops : next.loops.length = s.loops.length + 1)
      (hEnds : ∀ loop, Ends loop s a ↔ loop = s.loops.length) : TokenStep s a next
  | ended (gone : Nat) (hPerm : s.tokens.Perm (gone :: next.tokens))
      (hLoops : next.loops.length = s.loops.length)
      (hEnds : ∀ loop, Ends loop s a ↔ loop = gone) : TokenStep s a next

/-- The keys of the registered callbacks are different, and were all given out; and no loop has
two things under way for it. -/
structure Single (s : PollState) : Prop where
  keys : (s.polling.runningCallbacks.map (·.id)).Nodup
  given : ∀ running ∈ s.polling.runningCallbacks, running.id < s.polling.count
  nodup : s.tokens.Nodup
  known : ∀ loop ∈ s.tokens, loop < s.loops.length

/-- Taking the elements with one key out of a list of different keys takes one element out. -/
theorem perm_cons_filter_key {α : Type} {key : α → Nat} {list : List α}
    (hNodup : (list.map key).Nodup) {a : α} (hMem : a ∈ list) :
    list.Perm (a :: list.filter fun other => key other ≠ key a) := by
  induction list with
  | nil => cases hMem
  | cons head rest ih =>
      obtain ⟨hHead, hRest⟩ := List.nodup_cons.mp hNodup
      rcases List.mem_cons.mp hMem with rfl | hLater
      · have hAll : ∀ other ∈ rest, key other ≠ key a := fun other hOther hSame =>
          hHead (hSame ▸ List.mem_map_of_mem hOther)
        rw [List.filter_cons_of_neg (by simp), List.filter_eq_self.mpr (by simpa using hAll)]
      · have hNe : key head ≠ key a := fun hSame => hHead (hSame ▸ List.mem_map_of_mem hLater)
        rw [List.filter_cons_of_pos (by simpa using hNe)]
        exact ((ih hRest hLater).cons head).trans (.swap a head _)

section

variable {s next : PollState} {a : PollAction}

theorem mem_of_find {id : Nat} {running : RunningCallback}
    (hFind : s.polling.runningCallbacks.find? (·.id = id) = some running) :
    running ∈ s.polling.runningCallbacks ∧ running.id = id :=
  ⟨List.mem_of_find?_eq_some hFind, by simpa using List.find?_some hFind⟩

theorem Single.loop_lt (hSingle : s.Single) {running : RunningCallback}
    (hMem : running ∈ s.polling.runningCallbacks) : running.loop < s.loops.length :=
  hSingle.known _ (List.mem_append_left _ (List.mem_map_of_mem hMem))

theorem perm_of_getElem? {operations : List PollOperation} {index : Nat}
    {operation : PollOperation} (hAt : operations[index]? = some operation) :
    (operations.map (·.loop)).Perm
      (operation.loop :: (operations.eraseIdx index).map (·.loop)) := by
  obtain ⟨hIndex, rfl⟩ := List.getElem?_eq_some_iff.mp hAt
  exact ((List.getElem_cons_eraseIdx_perm hIndex).map _).symm

theorem perm_of_count {others : List Nat}
    (hCount : ∀ loop, next.tokens.count loop = others.count loop) : next.tokens.Perm others :=
  List.perm_iff_count.mpr hCount

theorem tokenStep_of_pollLoop {pollTimes : List Nat} {outcome : PollOutcome}
    (hStep : s.step (.pollLoop pollTimes outcome) = some next) :
    TokenStep s (.pollLoop pollTimes outcome) next := by
  cases hLoop : PollLoop.start pollTimes with
  | none =>
      simp only [step, hLoop, Option.some.injEq] at hStep
      subst hStep
      refine .kept (.refl _) rfl fun loop hEnds => ?_
      cases hEnds with
      | started _ hTimes => simp [PollLoop.start, List.length_pos_iff, hTimes] at hLoop
  | some loop =>
      have hTimes : pollTimes ≠ [] := by
        rintro rfl
        cases hLoop
      simp only [step, hLoop, Option.some.injEq] at hStep
      subst hStep
      simp only [pollCallback, List.getElem?_concat_length]
      cases outcome with
      | throws =>
          refine .stillborn (.refl _) (by simp) fun other => ⟨fun hEnds => ?_, fun hSame => ?_⟩
          · cases hEnds with
            | started _ _ hSame => exact hSame.symm
          · exact .started pollTimes hTimes hSame.symm
      | promises =>
          refine .started (perm_of_count fun other => ?_) (by simp) fun other hEnds => by
            cases hEnds
          simp only [tokens, List.map_append, List.map_cons, List.map_nil, List.count_append,
            List.count_cons, List.count_nil]
          omega

/-- The callback of a timer polls, or its loop is over. -/
theorem tokenStep_of_timer (hSingle : s.Single) {id : Nat} {outcome : PollOutcome}
    (hStep : s.step (.timer id outcome) = some next) : TokenStep s (.timer id outcome) next := by
  cases hFind : s.polling.runningCallbacks.find? (·.id = id) with
  | none => simp [step, hFind] at hStep
  | some running =>
      obtain ⟨hMem, rfl⟩ := mem_of_find hFind
      obtain ⟨loop, hLoop⟩ : ∃ loop, s.loops[running.loop]? = some loop :=
        ⟨_, List.getElem?_eq_getElem (hSingle.loop_lt hMem)⟩
      -- the callback of the timer is taken out, whatever it does
      have hCount := ((perm_cons_filter_key hSingle.keys hMem).map (·.loop)).count_eq
      simp only [List.map_cons, List.count_cons] at hCount
      have hEnds : ∀ loop, Ends loop s (.timer running.id outcome) ↔
          loop = running.loop ∧ (s.polling.isActive = false ∨ outcome = .throws) := by
        intro loop
        constructor
        · intro hLoopEnds
          cases hLoopEnds with
          | polled _ _ other hOther hSame hEnd =>
              rw [hFind] at hOther
              cases hOther
              exact ⟨hSame.symm, hEnd⟩
        · rintro ⟨hSame, hEnd⟩
          exact .polled _ outcome running hFind hSame.symm hEnd
      simp only [step, hFind, Option.some.injEq] at hStep
      subst hStep
      cases hActive : s.polling.isActive with
      | false =>
          refine .ended running.loop ?_ (by simp) fun loop => by simp [hEnds, hActive]
          refine List.perm_iff_count.mpr fun other => ?_
          have hOther := hCount other
          simp only [tokens, Bool.false_eq_true, if_false, List.count_append, List.count_cons]
          omega
      | true =>
          simp only [pollCallback, hLoop, if_true]
          cases outcome with
          | throws =>
              refine .ended running.loop ?_ (by simp) fun loop => by simp [hEnds, hActive]
              refine List.perm_iff_count.mpr fun other => ?_
              have hOther := hCount other
              simp only [tokens, List.count_append, List.count_cons]
              omega
          | promises =>
              refine .kept (perm_of_count fun other => ?_) (by simp) fun loop => by
                simp [hEnds, hActive]
              have hOther := hCount other
              simp only [tokens, List.map_append, List.map_cons, List.map_nil, List.count_append,
                List.count_cons, List.count_nil]
              omega

/-- An operation that settles waits for its reaction, or its loop is over. -/
theorem tokenStep_of_settle {index : Nat} {fulfilled : Bool}
    (hStep : s.step (.settle index fulfilled) = some next) :
    TokenStep s (.settle index fulfilled) next := by
  cases hAt : s.unsettled[index]? with
  | none => simp [step, hAt] at hStep
  | some operation =>
      have hCount := (perm_of_getElem? hAt).count_eq
      simp only [List.count_cons] at hCount
      simp only [step, hAt, Option.some.injEq] at hStep
      subst hStep
      cases fulfilled with
      | true =>
          refine .kept (perm_of_count fun other => ?_) rfl fun loop hEnds => by cases hEnds
          have hOther := hCount other
          simp only [tokens, if_true, List.map_append, List.map_cons, List.map_nil,
            List.count_append, List.count_cons, List.count_nil]
          omega
      | false =>
          refine .ended operation.loop ?_ rfl fun loop => ⟨fun hEnds => ?_, fun hSame =>
            .rejected index operation hAt hSame.symm⟩
          · refine List.perm_iff_count.mpr fun other => ?_
            have hOther := hCount other
            simp only [tokens, Bool.false_eq_true, if_false, List.count_append, List.count_cons]
            omega
          · cases hEnds with
            | rejected _ other hOther hSame =>
                rw [hAt] at hOther
                cases hOther
                exact hSame.symm

/-- The reaction registers the callback of its loop, or its loop is over. -/
theorem tokenStep_of_react {index : Nat} (hStep : s.step (.react index) = some next) :
    TokenStep s (.react index) next := by
  cases hAt : s.fulfilled[index]? with
  | none => simp [step, hAt] at hStep
  | some operation =>
      -- the operation is taken out, and the callback comes in for the same loop
      have hCount := (perm_of_getElem? hAt).count_eq
      simp only [List.count_cons] at hCount
      have hEnds : ∀ loop, Ends loop s (.react index) ↔
          loop = operation.loop ∧ s.polling.isActive = false := by
        intro loop
        constructor
        · intro hLoopEnds
          cases hLoopEnds with
          | stopped _ other hOther hSame hStopped =>
              rw [hAt] at hOther
              cases hOther
              exact ⟨hSame.symm, hStopped⟩
        · rintro ⟨hSame, hStopped⟩
          exact .stopped index operation hAt hSame.symm hStopped
      simp only [step, hAt, Option.some.injEq] at hStep
      subst hStep
      cases hActive : s.polling.isActive with
      | false =>
          refine .ended operation.loop ?_ rfl fun loop => by simp [hEnds, hActive]
          refine List.perm_iff_count.mpr fun other => ?_
          have hOther := hCount other
          simp only [tokens, PollingCallback.registerPollCallback, hActive, Bool.false_eq_true,
            if_false, List.count_append, List.count_cons]
          omega
      | true =>
          refine .kept (perm_of_count fun other => ?_) rfl fun loop => by simp [hEnds, hActive]
          have hOther := hCount other
          simp only [tokens, PollingCallback.registerPollCallback, hActive, if_true,
            List.map_append, List.map_cons, List.map_nil, List.count_append, List.count_cons,
            List.count_nil]
          omega

/-- **What an action does to the tokens.** -/
theorem tokenStep (hSingle : s.Single) (hStep : s.step a = some next) : TokenStep s a next := by
  cases a with
  | pollLoop pollTimes outcome => exact tokenStep_of_pollLoop hStep
  | timer id outcome => exact tokenStep_of_timer hSingle hStep
  | settle index fulfilled => exact tokenStep_of_settle hStep
  | react index => exact tokenStep_of_react hStep
  | stop =>
      obtain rfl := Option.some.inj hStep
      exact .kept (.refl _) rfl fun loop hEnds => by cases hEnds
  | stopAndWait timeoutSeconds called now =>
      obtain rfl := Option.some.inj hStep
      exact .kept (.refl _) rfl fun loop hEnds => by cases hEnds
  | tryIt index now =>
      simp only [step] at hStep
      split at hStep
      · obtain rfl := Option.some.inj hStep
        exact .kept (.refl _) rfl fun loop hEnds => by cases hEnds
      · cases hStep

/-- What an action does to the registered callbacks: some are taken out, or one is added under
a key that was not given out before. -/
theorem registered_step (hStep : s.step a = some next) :
    (next.polling.runningCallbacks.Sublist s.polling.runningCallbacks ∧
      next.polling.count = s.polling.count) ∨
      ∃ running, next.polling.runningCallbacks = s.polling.runningCallbacks ++ [running] ∧
        running.id = s.polling.count ∧ next.polling.count = s.polling.count + 1 := by
  cases a with
  | pollLoop pollTimes outcome =>
      simp only [step] at hStep
      split at hStep
      · obtain rfl := Option.some.inj hStep
        exact Or.inl ⟨.refl _, rfl⟩
      · obtain rfl := Option.some.inj hStep
        rw [pollCallback_polling]
        exact Or.inl ⟨.refl _, rfl⟩
  | timer id outcome =>
      cases hFind : s.polling.runningCallbacks.find? (·.id = id) with
      | none => simp [step, hFind] at hStep
      | some running =>
          simp only [step, hFind, Option.some.injEq] at hStep
          subst hStep
          have hPolling : (if s.polling.isActive = true then s.pollCallback running.loop outcome
              else s).polling = s.polling := by
            split
            · exact pollCallback_polling ..
            · rfl
          refine Or.inl ⟨?_, ?_⟩
          · simp only [hPolling]
            exact List.filter_sublist
          · simp only [hPolling]
  | settle index fulfilled =>
      simp only [step] at hStep
      split at hStep
      · cases hStep
      · obtain rfl := Option.some.inj hStep
        exact Or.inl ⟨.refl _, rfl⟩
  | react index =>
      simp only [step] at hStep
      split at hStep
      · cases hStep
      · obtain rfl := Option.some.inj hStep
        -- only the reaction registers, while polling is active
        unfold PollingCallback.registerPollCallback
        split
        · exact Or.inr ⟨_, rfl, rfl, rfl⟩
        · exact Or.inl ⟨.refl _, rfl⟩
  | stop =>
      obtain rfl := Option.some.inj hStep
      exact Or.inl ⟨.refl _, rfl⟩
  | stopAndWait timeoutSeconds called now =>
      obtain rfl := Option.some.inj hStep
      exact Or.inl ⟨.refl _, rfl⟩
  | tryIt index now =>
      simp only [step] at hStep
      split at hStep
      · obtain rfl := Option.some.inj hStep
        exact Or.inl ⟨.refl _, rfl⟩
      · cases hStep

theorem single_new : PollState.new.Single where
  keys := List.nodup_nil
  given _ hMem := nomatch hMem
  nodup := List.nodup_nil
  known _ hMem := nomatch hMem

/-- **Step lemma.**  No loop gets a second thing under way. -/
theorem Single.step (hSingle : s.Single) (hStep : s.step a = some next) : next.Single := by
  have hTokens := tokenStep hSingle hStep
  constructor
  · rcases registered_step hStep with ⟨hSublist, -⟩ | ⟨running, hAdded, hId, -⟩
    · exact (hSublist.map _).nodup hSingle.keys
    · rw [hAdded, List.map_append, List.map_singleton]
      refine (List.perm_append_singleton _ _).nodup_iff.mpr
        (List.nodup_cons.mpr ⟨fun hOld => ?_, hSingle.keys⟩)
      obtain ⟨old, hMem, hSame⟩ := List.mem_map.mp hOld
      have hGiven := hSingle.given old hMem
      omega
  · intro running hMem
    rcases registered_step hStep with ⟨hSublist, hCount⟩ | ⟨added, hAdded, hId, hCount⟩
    · rw [hCount]
      exact hSingle.given running (hSublist.subset hMem)
    · rw [hAdded] at hMem
      rcases List.mem_append.mp hMem with hOld | hNew
      · have hGiven := hSingle.given running hOld
        omega
      · obtain rfl := List.mem_singleton.mp hNew
        omega
  · cases hTokens with
    | kept hPerm => exact hPerm.nodup_iff.mpr hSingle.nodup
    | started hPerm =>
        -- a new loop has the next number, which no loop had before
        refine hPerm.nodup_iff.mpr (List.nodup_cons.mpr ⟨fun hOld => ?_, hSingle.nodup⟩)
        exact absurd (hSingle.known _ hOld) (Nat.lt_irrefl _)
    | stillborn hPerm => exact hPerm.nodup_iff.mpr hSingle.nodup
    | ended gone hPerm => exact (List.nodup_cons.mp (hPerm.nodup_iff.mp hSingle.nodup)).2
  · intro loop hMem
    cases hTokens with
    | kept hPerm hLoops => exact hLoops ▸ hSingle.known loop (hPerm.mem_iff.mp hMem)
    | started hPerm hLoops =>
        rcases List.mem_cons.mp (hPerm.mem_iff.mp hMem) with rfl | hOld
        · omega
        · have hKnown := hSingle.known loop hOld
          omega
    | stillborn hPerm hLoops =>
        have hKnown := hSingle.known loop (hPerm.mem_iff.mp hMem)
        omega
    | ended gone hPerm hLoops =>
        exact hLoops ▸ hSingle.known loop (hPerm.mem_iff.mpr (List.mem_cons_of_mem _ hMem))

end

/-! ## When a loop is over -/

/-- An action of the path has ended the loop. -/
def Over (trace : List (PollState × PollAction)) (loop : Nat) : Prop :=
  ∃ p ∈ trace, Ends loop p.1 p.2

theorem over_append {trace : List (PollState × PollAction)} {s : PollState} {a : PollAction}
    {loop : Nat} : Over (trace ++ [(s, a)]) loop ↔ Over trace loop ∨ Ends loop s a := by
  simp [Over, or_and_right, exists_or]

/-- A loop that was started is over, or one thing is under way for it. -/
structure Accounted (trace : List (PollState × PollAction)) (s : PollState) : Prop where
  single : s.Single
  started : ∀ loop, loop < s.loops.length ↔ loop ∈ s.tokens ∨ Over trace loop
  apart : ∀ loop ∈ s.tokens, ¬ Over trace loop

/-- **Step lemma.**  Every action accounts for the loops. -/
theorem Accounted.step {trace : List (PollState × PollAction)} {s next : PollState}
    {a : PollAction} (hAccounted : Accounted trace s) (hStep : s.step a = some next) :
    Accounted (trace ++ [(s, a)]) next := by
  have hKnown := hAccounted.single.known
  have hNodup := hAccounted.single.nodup
  have hOver : ∀ {loop}, Over trace loop → loop < s.loops.length :=
    fun hOver => (hAccounted.started _).mpr (Or.inr hOver)
  refine ⟨hAccounted.single.step hStep, fun loop => ?_, fun loop hMem => ?_⟩
  · have hBefore := hAccounted.started loop
    rw [over_append]
    cases tokenStep hAccounted.single hStep with
    | kept hPerm hLoops hStays => simpa [hPerm.mem_iff, hLoops, hStays loop] using hBefore
    | started hPerm hLoops hStays =>
        rw [hPerm.mem_iff, hLoops, List.mem_cons, or_iff_left (hStays loop), or_assoc, ← hBefore]
        omega
    | stillborn hPerm hLoops hEnds =>
        rw [hPerm.mem_iff, hLoops, hEnds, ← or_assoc, ← hBefore]
        omega
    | ended gone hPerm hLoops hEnds =>
        rw [hLoops, hEnds, hBefore, hPerm.mem_iff, List.mem_cons]
        tauto
  · rw [over_append]
    cases tokenStep hAccounted.single hStep with
    | kept hPerm hLoops hStays =>
        exact not_or.mpr ⟨hAccounted.apart loop (hPerm.mem_iff.mp hMem), hStays loop⟩
    | started hPerm hLoops hStays =>
        refine not_or.mpr ⟨fun hBefore => ?_, hStays loop⟩
        rcases List.mem_cons.mp (hPerm.mem_iff.mp hMem) with rfl | hOld
        · exact absurd (hOver hBefore) (Nat.lt_irrefl _)
        · exact hAccounted.apart loop hOld hBefore
    | stillborn hPerm hLoops hEnds =>
        have hOld := hPerm.mem_iff.mp hMem
        refine not_or.mpr ⟨hAccounted.apart loop hOld, fun hNow => ?_⟩
        exact absurd (hKnown loop hOld) ((hEnds loop).mp hNow ▸ Nat.lt_irrefl _)
    | ended gone hPerm hLoops hEnds =>
        have hOld := hPerm.mem_iff.mpr (List.mem_cons_of_mem _ hMem)
        refine not_or.mpr ⟨hAccounted.apart loop hOld, fun hNow => ?_⟩
        -- its one token is gone
        obtain rfl := (hEnds loop).mp hNow
        exact (List.nodup_cons.mp (hPerm.nodup_iff.mp hNodup)).1 hMem

end PollState

/-- **A loop is over exactly when an action has ended it**; otherwise one thing is under way for
it, a registered callback or a poll operation, and never two. -/
theorem loop_over_iff {trace : List (PollState × PollAction)} {last : PollState}
    (hPath : Path PollState.step .new trace last) :
    last.tokens.Nodup ∧
      ∀ loop < last.loops.length, loop ∉ last.tokens ↔ PollState.Over trace loop := by
  have hAccounted : PollState.Accounted trace last :=
    hPath.carries (fun _ _ _ _ hBefore hStep => hBefore.step hStep)
      ⟨PollState.single_new, fun loop => by
        simp [PollState.new, PollState.tokens, PollingCallback.new, PollState.Over],
        fun loop hMem => nomatch hMem⟩
  refine ⟨hAccounted.single.nodup, fun loop hLoop => ⟨fun hNone => ?_, fun hOver hMem => ?_⟩⟩
  · exact ((hAccounted.started loop).mp hLoop).resolve_left hNone
  · exact hAccounted.apart loop hMem hOver

/-- Two loops are started; the first poll of one is rejected, the other one waits and polls
again. -/
def twoLoops : List PollAction :=
  [.pollLoop [30] .promises, .pollLoop [10, 20] .promises, .settle 0 false, .settle 0 true,
    .react 0, .timer 0 .promises, .settle 0 true, .react 0]

/-- Then the first loop is over, and the second one waits. -/
theorem loop_over_twoLoops :
    (Path.follow PollState.step .new twoLoops).2.tokens = [1] ∧
      (Path.follow PollState.step .new twoLoops).2.tokens.Nodup ∧
        ∀ loop < (Path.follow PollState.step .new twoLoops).2.loops.length,
          loop ∉ (Path.follow PollState.step .new twoLoops).2.tokens ↔
            PollState.Over (Path.follow PollState.step .new twoLoops).1 loop :=
  ⟨by decide, loop_over_iff (Path.path_follow PollState.step .new twoLoops)⟩

end TernScheduler
