import TernScheduler.Library.Alone

/-!
# Programs watched as they run

A program among others, with all it has done so far on record.  What an operation may
meet can then depend on the record, and what a run has done can be read off it.

* `Watched` is the shared state and the operations performed so far, with their replies.
* `Prog.run` is the run in which every operation is answered as told.
* `Prog.Plays` says that a list of operations is one complete run of the program.
* `Prog.Uses.ensures` is the invariant rule: a condition kept by every operation of the
  kind the program uses holds when it ends.
-/

namespace Interleaving

variable {Sg : Signature} {σ α β ε : Type}

/-- An operation that was performed, and its reply. -/
abbrev Exchange (Sg : Signature) : Type := (op : Sg.Op) × Sg.Reply op

/-- The shared state, and what the program has done so far, the first operation first. -/
structure Watched (Sg : Signature) (σ : Type) where
  shared : σ
  record : List (Exchange Sg)

/-- How an operation may go, after what was done so far: its reply and the shared state
it leaves. -/
abbrev Setting (Sg : Signature) (σ : Type) :=
  Watched Sg σ → (op : Sg.Op) → Sg.Reply op → σ → Prop

/-- Operations go as the setting says, and are recorded. -/
def Setting.exec (setting : Setting Sg σ) : Execution Sg (Watched Sg σ) :=
  fun seen op reply after =>
    setting seen op reply after.shared ∧ after.record = seen.record ++ [⟨op, reply⟩]

/-! ## Invariants of a program -/

/-- A condition that every operation of a kind keeps holds at the end of a program that
uses this kind alone. -/
theorem Prog.Uses.ensures {exec : Execution Sg σ} {P : Sg.Op → Prop} {I : σ → Prop}
    (hKept : ∀ state op reply after, P op → I state → exec state op reply after → I after)
    {program : Prog Sg α} (hUses : program.Uses P) {state : σ} (h : I state) :
    program.Ensures exec (fun after _ => I after) state := by
  induction program generalizing state with
  | ret value => exact h
  | call op next ih =>
      intro reply after hExec
      exact ih reply (hUses.2 reply) (hKept state op reply after hUses.1 h hExec)

/-- Every run ends somehow. -/
theorem Promise.sat_true {exec : Execution Sg σ} {state : σ} (promise : Promise Sg ε α) :
    promise.Sat exec.transformer (fun _ _ => True) (fun _ _ => True) state := by
  have hUses : ∀ program : Prog Sg (Except ε α), program.Uses fun _ => True := by
    intro program
    induction program with
    | ret value => trivial
    | call op next ih => exact ⟨trivial, ih⟩
  refine Prog.Sat.mono (Prog.Uses.ensures (I := fun _ => True) (fun _ _ _ _ _ h _ => h)
    (hUses promise) trivial) fun after result _ => ?_
  cases result <;> trivial

/-- What all runs of a promise ensure when it settles, and a condition that holds at their
end either way. -/
theorem Promise.sat_and {exec : Execution Sg σ} {resolved : σ → α → Prop}
    {rejected : σ → ε → Prop} {I : σ → Prop} {state : σ} {promise : Promise Sg ε α}
    (h : promise.Sat exec.transformer resolved rejected state)
    (hEnd : Prog.Ensures exec (fun after _ => I after) state promise) :
    promise.Sat exec.transformer (fun after value => resolved after value ∧ I after)
      (fun after reason => rejected after reason ∧ I after) state := by
  refine Prog.Sat.mono (Prog.Ensures.and h hEnd) fun after result hBoth => ?_
  cases result with
  | ok value => exact hBoth
  | error reason => exact hBoth

/-! ## Concrete runs -/

/-- The run of a program whose operations are answered as told.  It stops where there is
no answer. -/
def Prog.run (respond : σ → (op : Sg.Op) → Option (Sg.Reply op × σ)) :
    Prog Sg α → σ → Option (σ × α)
  | .ret value, state => some (state, value)
  | .call op next, state =>
      match respond state op with
      | some (reply, after) => (next reply).run respond after
      | none => none

/-- What all runs ensure, this one does. -/
theorem Prog.Ensures.run {exec : Execution Sg σ} {post : σ → α → Prop}
    {respond : σ → (op : Sg.Op) → Option (Sg.Reply op × σ)}
    (hRespond : ∀ state op reply after, respond state op = some (reply, after) →
      exec state op reply after)
    {program : Prog Sg α} {state : σ} (h : program.Ensures exec post state) :
    ∀ last ∈ program.run respond state, post last.1 last.2 := by
  induction program generalizing state with
  | ret value =>
      intro last hLast
      obtain rfl := Option.some.inj hLast
      exact h
  | call op next ih =>
      intro last hLast
      rw [Prog.run] at hLast
      split at hLast
      · rename_i reply after hReply
        exact ih reply (h reply after (hRespond _ _ _ _ hReply)) last hLast
      · cases hLast

/-! ## Complete runs -/

/-- The operations are those of one run of the program from its start to its end, which
ends with the value. -/
def Prog.Plays : Prog Sg α → List (Exchange Sg) → α → Prop
  | .ret value, done, last => done = [] ∧ last = value
  | .call op next, done, last =>
      ∃ reply rest, done = ⟨op, reply⟩ :: rest ∧ (next reply).Plays rest last

/-- A run of a sequence is a run of its first part, and then one of the rest. -/
theorem Prog.Plays.bind {program : Prog Sg α} {rest : α → Prog Sg β}
    {done : List (Exchange Sg)} {last : β} (h : (program.bind rest).Plays done last) :
    ∃ first second value, done = first ++ second ∧ program.Plays first value ∧
      (rest value).Plays second last := by
  induction program generalizing done with
  | ret value => exact ⟨[], done, value, rfl, ⟨rfl, rfl⟩, h⟩
  | call op next ih =>
      obtain ⟨reply, later, rfl, hLater⟩ := h
      obtain ⟨first, second, value, rfl, hFirst, hSecond⟩ := ih reply hLater
      exact ⟨⟨op, reply⟩ :: first, second, value, rfl, ⟨reply, first, rfl, hFirst⟩, hSecond⟩

/-- The operations are those of one run of the promise, which settles with the result. -/
abbrev Promise.Plays (promise : Promise Sg ε α) (done : List (Exchange Sg))
    (last : Except ε α) : Prop :=
  Prog.Plays promise done last

/-- `.then`: the handler is run after a value, and a rejection passes through. -/
theorem Promise.plays_bind {promise : Promise Sg ε α} {rest : α → Promise Sg ε β}
    {done : List (Exchange Sg)} {last : Except ε β} (h : (promise >>= rest).Plays done last) :
    (∃ first second value, done = first ++ second ∧ promise.Plays first (.ok value) ∧
        (rest value).Plays second last) ∨
      ∃ reason, promise.Plays done (.error reason) ∧ last = .error reason := by
  obtain ⟨first, second, result, rfl, hFirst, hSecond⟩ := Prog.Plays.bind h
  cases result with
  | ok value => exact Or.inl ⟨first, second, value, rfl, hFirst, hSecond⟩
  | error reason =>
      obtain ⟨rfl, rfl⟩ := hSecond
      exact Or.inr ⟨reason, by rwa [List.append_nil], rfl⟩

/-- `.catch`: the handler is run after a rejection, and a value passes through. -/
theorem Promise.plays_handle {promise : Promise Sg ε α} {handler : ε → Promise Sg ε α}
    {done : List (Exchange Sg)} {last : Except ε α}
    (h : (promise.handle handler).Plays done last) :
    (∃ value, promise.Plays done (.ok value) ∧ last = .ok value) ∨
      ∃ first second reason, done = first ++ second ∧
        promise.Plays first (.error reason) ∧ (handler reason).Plays second last := by
  obtain ⟨first, second, result, rfl, hFirst, hSecond⟩ := Prog.Plays.bind h
  cases result with
  | ok value =>
      obtain ⟨rfl, rfl⟩ := hSecond
      exact Or.inl ⟨value, by rwa [List.append_nil], rfl⟩
  | error reason => exact Or.inr ⟨first, second, reason, rfl, hFirst, hSecond⟩

/-- What is recorded of a program is one run of it. -/
theorem Prog.ensures_plays {setting : Setting Sg σ} (program : Prog Sg α)
    (seen : Watched Sg σ) :
    program.Ensures setting.exec
      (fun after value => ∃ done, after.record = seen.record ++ done ∧
        program.Plays done value) seen := by
  induction program generalizing seen with
  | ret value => exact ⟨[], (List.append_nil _).symm, rfl, rfl⟩
  | call op next ih =>
      intro reply after hExec
      refine Prog.Sat.mono (ih reply after) fun last value hPlays => ?_
      -- the record grows at its end, and a run at its start
      obtain ⟨done, hRecord, hDone⟩ := hPlays
      refine ⟨⟨op, reply⟩ :: done, ?_, reply, done, rfl, hDone⟩
      rw [hRecord, hExec.2, List.append_assoc, List.singleton_append]

/-- The operations of a run are of the kind the program uses. -/
theorem Prog.Uses.forall_of_plays {P : Sg.Op → Prop} {program : Prog Sg α}
    (hUses : program.Uses P) {done : List (Exchange Sg)} {value : α}
    (hPlays : program.Plays done value) : ∀ exchange ∈ done, P exchange.1 := by
  induction program generalizing done with
  | ret last =>
      intro exchange hMem
      rw [hPlays.1] at hMem
      cases hMem
  | call op next ih =>
      obtain ⟨reply, rest, rfl, hRest⟩ := hPlays
      intro exchange hMem
      rcases List.mem_cons.mp hMem with rfl | hLater
      · exact hUses.1
      · exact ih reply (hUses.2 reply) hRest exchange hLater

end Interleaving
