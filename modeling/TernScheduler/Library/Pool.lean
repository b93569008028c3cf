import TernScheduler.Library.Protocol

/-!
# Pools of interleaved programs

A pool runs any number of programs over one shared state.  A step starts a
program, lets one program perform its next operation atomically, stops a
program for good between two operations, or lets the environment move.  Every
operation performed is appended to a log, newest first, together with the
shared state it was performed in; the log is a history variable, no program
reads it.

* `Run sys A` is the reflexive transitive closure of the steps that satisfy the
  run condition `A`, so an assumption about the environment or the schedule is
  a predicate on steps.
* `Run.invariant` packages the induction over a run.
* `Pool.MayReach` says what a program of the pool may still perform.
* `Run.honors` lifts a protocol from programs to pools: after any run, what is
  left of each program honors the protocol from the state its own log entries
  lead to.
-/

namespace Interleaving

variable {Sg : Signature} {σ κ ρ M : Type}

/-- One operation performed by a program of the pool. -/
structure Entry (Sg : Signature) (σ : Type) where
  pid : Nat
  op : Sg.Op
  reply : Sg.Reply op
  before : σ

/-- A program of the pool: the request it was started for, and what is left of
it, or nothing once it has been stopped. -/
structure Proc (Sg : Signature) (κ ρ : Type) where
  request : κ
  prog : Option (Prog Sg ρ)

/-- The shared state, the programs in the order they were started, and the
operations performed so far, newest first. -/
structure Pool (Sg : Signature) (σ κ ρ : Type) where
  shared : σ
  procs : List (Proc Sg κ ρ)
  log : List (Entry Sg σ)

/-- What a pool runs: the program of each request, the effect of an operation,
and the moves of the environment. -/
structure System (Sg : Signature) (σ κ ρ : Type) where
  program : κ → Prog Sg ρ
  exec : σ → (op : Sg.Op) → Sg.Reply op → σ → Prop
  drift : σ → σ → Prop

/-- The label of a step. -/
inductive Event (Sg : Signature) (σ κ : Type)
  | spawned (request : κ)
  | ran (entry : Entry Sg σ)
  | stopped (pid : Nat)
  | drifted

/-- The operation a step performs, if it performs one. -/
def Event.entry : Event Sg σ κ → Option (Entry Sg σ)
  | .ran entry => some entry
  | _ => none

/-- The request of the program a step starts, if it starts one. -/
def Event.request : Event Sg σ κ → Option κ
  | .spawned request => some request
  | _ => none

/-- One step of a pool. -/
inductive Step (sys : System Sg σ κ ρ) :
    Pool Sg σ κ ρ → Event Sg σ κ → Pool Sg σ κ ρ → Prop
  | spawn (pool : Pool Sg σ κ ρ) (request : κ) :
      Step sys pool (.spawned request)
        { pool with procs := pool.procs ++ [⟨request, some (sys.program request)⟩] }
  | run (pool : Pool Sg σ κ ρ) (pid : Nat) (request : κ) (op : Sg.Op)
      (next : Sg.Reply op → Prog Sg ρ) (reply : Sg.Reply op) (after : σ)
      (hProc : pool.procs[pid]? = some ⟨request, some (.call op next)⟩)
      (hExec : sys.exec pool.shared op reply after) :
      Step sys pool (.ran ⟨pid, op, reply, pool.shared⟩)
        { shared := after
          procs := pool.procs.set pid ⟨request, some (next reply)⟩
          log := ⟨pid, op, reply, pool.shared⟩ :: pool.log }
  | stop (pool : Pool Sg σ κ ρ) (pid : Nat) (proc : Proc Sg κ ρ)
      (hProc : pool.procs[pid]? = some proc) :
      Step sys pool (.stopped pid)
        { pool with procs := pool.procs.set pid ⟨proc.request, none⟩ }
  | drift (pool : Pool Sg σ κ ρ) (after : σ)
      (hDrift : sys.drift pool.shared after) :
      Step sys pool .drifted { pool with shared := after }

/-- A condition on the steps of a run. -/
abbrev RunCondition (Sg : Signature) (σ κ ρ : Type) :=
  Pool Sg σ κ ρ → Event Sg σ κ → Pool Sg σ κ ρ → Prop

/-- Both conditions on the steps of a run. -/
def RunCondition.and (A B : RunCondition Sg σ κ ρ) : RunCondition Sg σ κ ρ :=
  fun pool event pool' => A pool event pool' ∧ B pool event pool'

/-- A finite run all of whose steps satisfy the run condition. -/
inductive Run (sys : System Sg σ κ ρ) (A : RunCondition Sg σ κ ρ) :
    Pool Sg σ κ ρ → Pool Sg σ κ ρ → Prop
  | refl (pool : Pool Sg σ κ ρ) : Run sys A pool pool
  | tail {first middle last : Pool Sg σ κ ρ} {event : Event Sg σ κ}
      (hRun : Run sys A first middle) (hStep : Step sys middle event last)
      (hCondition : A middle event last) : Run sys A first last

namespace Run

variable {sys : System Sg σ κ ρ} {A B : RunCondition Sg σ κ ρ}
  {first middle last : Pool Sg σ κ ρ}

/-- The induction over a run: a predicate that holds at its start and is kept
by every step the run condition allows holds at its end. -/
theorem invariant {I : Pool Sg σ κ ρ → Prop} (hRun : Run sys A first last)
    (hInit : I first)
    (hStep : ∀ pool event pool', Run sys A first pool → I pool →
      Step sys pool event pool' → A pool event pool' → I pool') : I last := by
  induction hRun with
  | refl => exact hInit
  | tail hRun hLast hCondition ih => exact hStep _ _ _ hRun ih hLast hCondition

theorem trans (hFirst : Run sys A first middle) (hSecond : Run sys A middle last) :
    Run sys A first last := by
  induction hSecond with
  | refl => exact hFirst
  | tail _ hStep hCondition ih => exact .tail ih hStep hCondition

theorem mono (hRun : Run sys A first last)
    (hImp : ∀ pool event pool', A pool event pool' → B pool event pool') :
    Run sys B first last := by
  induction hRun with
  | refl => exact .refl _
  | tail _ hStep hCondition ih => exact .tail ih hStep (hImp _ _ _ hCondition)

end Run

/-- A pool before anything has been started. -/
def Pool.Idle (pool : Pool Sg σ κ ρ) : Prop := pool.procs = [] ∧ pool.log = []

/-- The pool that starts from a shared state. -/
def Pool.start (shared : σ) : Pool Sg σ κ ρ := ⟨shared, [], []⟩

theorem Pool.start_idle (shared : σ) : (Pool.start shared : Pool Sg σ κ ρ).Idle :=
  ⟨rfl, rfl⟩

/-- Only programs of the pool have performed operations. -/
def Pool.LogOwned (pool : Pool Sg σ κ ρ) : Prop :=
  ∀ entry ∈ pool.log, entry.pid < pool.procs.length

theorem Step.logOwned {sys : System Sg σ κ ρ} {pool pool' : Pool Sg σ κ ρ}
    {event : Event Sg σ κ} (hStep : Step sys pool event pool')
    (hOwned : pool.LogOwned) : pool'.LogOwned := by
  cases hStep with
  | spawn request =>
      intro entry hEntry
      have := hOwned entry hEntry
      simp only [List.length_append, List.length_singleton]
      omega
  | run pid request op next reply after hProc hExec =>
      intro entry hEntry
      simp only [List.length_set]
      rcases List.mem_cons.mp hEntry with rfl | hEntry
      · exact (List.getElem?_eq_some_iff.mp hProc).1
      · exact hOwned entry hEntry
  | stop pid proc hProc => simpa [Pool.LogOwned] using hOwned
  | drift after hDrift => exact hOwned

theorem Run.logOwned {sys : System Sg σ κ ρ} {A : RunCondition Sg σ κ ρ}
    {first last : Pool Sg σ κ ρ} (hRun : Run sys A first last)
    (hIdle : first.Idle) : last.LogOwned := by
  refine hRun.invariant ?_ fun pool event pool' _ hOwned hStep _ =>
    hStep.logOwned hOwned
  intro entry hEntry
  rw [hIdle.2] at hEntry
  exact absurd hEntry List.not_mem_nil

/-- What the run condition says of every operation holds of every entry of the
log. -/
theorem Run.logged {sys : System Sg σ κ ρ} {A : RunCondition Sg σ κ ρ}
    {C : Entry Sg σ → Prop} {first last : Pool Sg σ κ ρ} (hRun : Run sys A first last)
    (hIdle : first.Idle)
    (hCondition : ∀ pool entry pool', Run sys A first pool →
      Step sys pool (.ran entry) pool' → A pool (.ran entry) pool' → C entry) :
    ∀ entry ∈ last.log, C entry := by
  refine hRun.invariant (I := fun pool => ∀ entry ∈ pool.log, C entry) ?_ ?_
  · intro entry hEntry
    rw [hIdle.2] at hEntry
    cases hEntry
  · intro pool event pool' hBefore hAll hStep hA entry hEntry
    have hStep' := hStep
    cases hStep with
    | run pid request op next reply after hProc hExec =>
        rcases List.mem_cons.mp hEntry with rfl | hOld
        · exact hCondition _ _ _ hBefore hStep' hA
        · exact hAll entry hOld
    | _ => exact hAll entry hEntry

/-- An operation that makes a lasting property of the shared state true, and is not
performed where it is true, is performed once at most. -/
theorem Run.performed_once {sys : System Sg σ κ ρ} {A : RunCondition Sg σ κ ρ}
    {p : Entry Sg σ → Bool} {D : σ → Prop} {first last : Pool Sg σ κ ρ}
    (hRun : Run sys A first last) (hIdle : first.Idle)
    (hMakes : ∀ pool entry pool', Run sys A first pool → Step sys pool (.ran entry) pool' →
      p entry = true → ¬ D pool.shared ∧ D pool'.shared)
    (hKept : ∀ pool event pool', Run sys A first pool → Step sys pool event pool' →
      D pool.shared → D pool'.shared) :
    (∀ entry ∈ last.log, p entry = true → D last.shared) ∧
      (last.log.filter p).length ≤ 1 := by
  refine hRun.invariant (I := fun pool =>
    (∀ entry ∈ pool.log, p entry = true → D pool.shared) ∧
      (pool.log.filter p).length ≤ 1) ?_ ?_
  · rw [hIdle.2]
    exact ⟨fun entry hEntry => absurd hEntry List.not_mem_nil, Nat.zero_le 1⟩
  · rintro pool event pool' hBefore ⟨hMade, hOnce⟩ hStep -
    have hKeeps := hKept pool event pool' hBefore hStep
    cases hStep with
    | run pid request op next reply after hProc hExec =>
        have hMakes := hMakes pool ⟨pid, op, reply, pool.shared⟩ _ hBefore
          (.run pool pid request op next reply after hProc hExec)
        cases hp : p ⟨pid, op, reply, pool.shared⟩ with
        | false =>
            rw [List.filter_cons_of_neg (by simp [hp])]
            refine ⟨fun entry hEntry hOwn => ?_, hOnce⟩
            rcases List.mem_cons.mp hEntry with rfl | hOld
            · rw [hp] at hOwn
              cases hOwn
            · exact hKeeps (hMade entry hOld hOwn)
        | true =>
            -- Nothing performed it before, since the property did not hold.
            have hNone : pool.log.filter p = [] :=
              List.filter_eq_nil_iff.mpr fun entry hEntry hOwn =>
                (hMakes hp).1 (hMade entry hEntry hOwn)
            rw [List.filter_cons_of_pos hp, hNone]
            exact ⟨fun _ _ _ => (hMakes hp).2, Nat.le_refl 1⟩
    | _ => exact ⟨fun entry hEntry hOwn => hKeeps (hMade entry hEntry hOwn), hOnce⟩

/-- Operations that all belong to one program are as many as those of that program. -/
theorem length_filter_of_owner {p : Entry Sg σ → Bool} {log : List (Entry Sg σ)} {owner : Nat}
    (hOwn : ∀ entry ∈ log, p entry = true → entry.pid = owner) :
    (log.filter p).length =
      (log.filter fun entry => entry.pid = owner && p entry).length := by
  refine congrArg List.length (List.filter_congr fun entry hEntry => ?_)
  cases hp : p entry with
  | false => simp
  | true => simp [hOwn entry hEntry hp]

/-! ## Protocol states of the programs of a pool -/

namespace Protocol

/-- The protocol state one program's own log entries lead to. -/
def replay (P : Protocol Sg M) (init : M) (pid : Nat) :
    List (Entry Sg σ) → M
  | [] => init
  | entry :: log =>
      if entry.pid = pid then P.next (replay P init pid log) entry.op entry.reply
      else replay P init pid log

variable {P : Protocol Sg M} {init : M} {pid : Nat} {log : List (Entry Sg σ)}

@[simp] theorem replay_nil : P.replay init pid ([] : List (Entry Sg σ)) = init :=
  rfl

@[simp] theorem replay_cons_self (op : Sg.Op) (reply : Sg.Reply op) (before : σ) :
    P.replay init pid (⟨pid, op, reply, before⟩ :: log) =
      P.next (P.replay init pid log) op reply := by
  rw [replay, if_pos rfl]

theorem replay_cons_of_ne (P : Protocol Sg M) (init : M) (log : List (Entry Sg σ))
    {entry : Entry Sg σ} (h : entry.pid ≠ pid) :
    P.replay init pid (entry :: log) = P.replay init pid log := by
  rw [replay, if_neg h]

/-- Protocols that move alike are led to the same states. -/
theorem replay_congr {P' : Protocol Sg M} (h : P.next = P'.next) :
    P.replay init pid log = P'.replay init pid log := by
  induction log with
  | nil => rfl
  | cons entry log ih => simp only [replay, ih, h]

/-- A program that has performed nothing is still in its initial state. -/
theorem replay_eq_init (h : ∀ entry ∈ log, entry.pid ≠ pid) :
    P.replay init pid log = init := by
  induction log with
  | nil => rfl
  | cons entry log ih =>
      rw [replay_cons_of_ne _ _ _ (h entry List.mem_cons_self)]
      exact ih fun later hLater => h later (List.mem_cons_of_mem _ hLater)

end Protocol

/-- The request of a program of the pool and the protocol state its own
operations lead to; nothing when no such program was started. -/
def Pool.stateOf (pool : Pool Sg σ κ ρ) (P : κ → Protocol Sg M) (init : κ → M)
    (pid : Nat) : Option (κ × M) :=
  pool.procs[pid]?.map fun proc =>
    (proc.request, (P proc.request).replay (init proc.request) pid pool.log)

section StateOf

variable {P : κ → Protocol Sg M} {init : κ → M} {pool : Pool Sg σ κ ρ}

theorem Pool.stateOf_eq_some {pid : Nat} {request : κ} {program : Option (Prog Sg ρ)}
    (hProc : pool.procs[pid]? = some ⟨request, program⟩) :
    pool.stateOf P init pid =
      some (request, (P request).replay (init request) pid pool.log) := by
  rw [Pool.stateOf, hProc]
  rfl

/-- Starting a program adds its initial state. -/
theorem Pool.stateOf_spawn (hOwned : pool.LogOwned) (request : κ)
    (program : Option (Prog Sg ρ)) (pid : Nat) :
    ({ pool with procs := pool.procs ++ [⟨request, program⟩] } :
        Pool Sg σ κ ρ).stateOf P init pid =
      if pid = pool.procs.length then some (request, init request)
      else pool.stateOf P init pid := by
  unfold Pool.stateOf
  by_cases hPid : pid = pool.procs.length
  · subst hPid
    rw [if_pos rfl, List.getElem?_concat_length, Option.map_some,
      Protocol.replay_eq_init fun entry hEntry => Nat.ne_of_lt (hOwned entry hEntry)]
  · rw [if_neg hPid]
    by_cases hLt : pid < pool.procs.length
    · rw [List.getElem?_append_left hLt]
    · rw [List.getElem?_eq_none (by simp; omega), List.getElem?_eq_none (by omega)]

/-- Performing an operation moves the state of the program that performed it. -/
theorem Pool.stateOf_run {pid : Nat} {request : κ} {op : Sg.Op}
    {program : Option (Prog Sg ρ)} {reply : Sg.Reply op}
    {rest : Option (Prog Sg ρ)} {after : σ}
    (hProc : pool.procs[pid]? = some ⟨request, program⟩) (other : Nat) :
    ({ shared := after
       procs := pool.procs.set pid ⟨request, rest⟩
       log := ⟨pid, op, reply, pool.shared⟩ :: pool.log } : Pool Sg σ κ ρ).stateOf P
        init other =
      if other = pid then
        some (request, (P request).next
          ((P request).replay (init request) pid pool.log) op reply)
      else pool.stateOf P init other := by
  unfold Pool.stateOf
  by_cases hOther : other = pid
  · subst hOther
    rw [if_pos rfl, List.getElem?_set_self (List.getElem?_eq_some_iff.mp hProc).1,
      Option.map_some, Protocol.replay_cons_self]
  · have hNe : (⟨pid, op, reply, pool.shared⟩ : Entry Sg σ).pid ≠ other :=
      fun h => hOther h.symm
    rw [if_neg hOther, List.getElem?_set_ne (fun h => hOther h.symm)]
    simp only [Protocol.replay_cons_of_ne _ _ _ hNe]

/-- Stopping a program leaves every state as it was. -/
theorem Pool.stateOf_stop {pid : Nat} {proc : Proc Sg κ ρ}
    (hProc : pool.procs[pid]? = some proc) (other : Nat) :
    ({ pool with procs := pool.procs.set pid ⟨proc.request, none⟩ } :
        Pool Sg σ κ ρ).stateOf P init other = pool.stateOf P init other := by
  unfold Pool.stateOf
  by_cases hOther : other = pid
  · subst hOther
    rw [List.getElem?_set_self (List.getElem?_eq_some_iff.mp hProc).1, hProc]
    rfl
  · rw [List.getElem?_set_ne (fun h => hOther h.symm)]

end StateOf

/-- Each live program of the pool honors the protocol from the state its own
operations lead to. -/
def Pool.Honors (pool : Pool Sg σ κ ρ) (P : κ → Protocol Sg M) (init : κ → M)
    (post : κ → M → ρ → Prop) : Prop :=
  ∀ (pid : Nat) (request : κ) (program : Prog Sg ρ),
    pool.procs[pid]? = some ⟨request, some program⟩ →
    program.Honors (P request) (post request)
      ((P request).replay (init request) pid pool.log)

theorem Step.honors {sys : System Sg σ κ ρ} {P : κ → Protocol Sg M}
    {init : κ → M} {post : κ → M → ρ → Prop}
    (hProgram : ∀ request,
      (sys.program request).Honors (P request) (post request) (init request))
    {pool pool' : Pool Sg σ κ ρ} {event : Event Sg σ κ}
    (hStep : Step sys pool event pool') (hOwned : pool.LogOwned)
    (hHonors : pool.Honors P init post) : pool'.Honors P init post := by
  cases hStep with
  | spawn request =>
      intro pid other program hProc
      by_cases hLt : pid < pool.procs.length
      · rw [List.getElem?_append_left hLt] at hProc
        exact hHonors pid other program hProc
      · -- the new caller, which has no entry in the log
        have hPid : pid = pool.procs.length := by
          have hBound := (List.getElem?_eq_some_iff.mp hProc).1
          simp only [List.length_append, List.length_singleton] at hBound
          omega
        subst hPid
        simp only [List.getElem?_concat_length, Option.some.injEq, Proc.mk.injEq] at hProc
        obtain ⟨rfl, rfl⟩ := hProc
        rw [Protocol.replay_eq_init]
        · exact hProgram request
        · intro entry hEntry
          exact Nat.ne_of_lt (hOwned entry hEntry)
  | run pid request op next reply after hProc hExec =>
      intro other otherRequest program hOther
      by_cases hPid : pid = other
      · subst hPid
        have hBound := (List.getElem?_eq_some_iff.mp hProc).1
        rw [List.getElem?_set_self hBound] at hOther
        simp only [Option.some.injEq, Proc.mk.injEq] at hOther
        obtain ⟨rfl, rfl⟩ := hOther
        simp only [Protocol.replay_cons_self]
        exact (hHonors pid request _ hProc).2 reply
      · rw [List.getElem?_set_ne hPid] at hOther
        have hNe : (⟨pid, op, reply, pool.shared⟩ : Entry Sg σ).pid ≠ other := hPid
        simp only [Protocol.replay_cons_of_ne _ _ _ hNe]
        exact hHonors other otherRequest program hOther
  | stop pid proc hProc =>
      intro other otherRequest program hOther
      by_cases hPid : pid = other
      · subst hPid
        rw [List.getElem?_set_self (List.getElem?_eq_some_iff.mp hProc).1] at hOther
        simp at hOther
      · rw [List.getElem?_set_ne hPid] at hOther
        exact hHonors other otherRequest program hOther
  | drift after hDrift => exact hHonors

/-- **Protocols lift to pools.**  If the program of every request honors its
protocol alone, then after any run from an idle pool what is left of each
program honors it still. -/
theorem Run.honors {sys : System Sg σ κ ρ} {A : RunCondition Sg σ κ ρ}
    {P : κ → Protocol Sg M} {init : κ → M} {post : κ → M → ρ → Prop}
    (hProgram : ∀ request,
      (sys.program request).Honors (P request) (post request) (init request))
    {first last : Pool Sg σ κ ρ} (hRun : Run sys A first last)
    (hIdle : first.Idle) : last.Honors P init post := by
  refine hRun.invariant ?_ fun pool event pool' hBefore hHonors hStep _ =>
    hStep.honors hProgram (hBefore.logOwned hIdle) hHonors
  intro pid request program hProc
  rw [hIdle.1] at hProc
  simp at hProc

/-- An operation a step of a run performs is of the kind the programs use. -/
theorem Run.uses_of_step {sys : System Sg σ κ ρ} {A : RunCondition Sg σ κ ρ}
    {Q : Sg.Op → Prop} {first pool pool' : Pool Sg σ κ ρ} {entry : Entry Sg σ}
    (hProgram : ∀ request, (sys.program request).Uses Q) (hRun : Run sys A first pool)
    (hIdle : first.Idle) (hStep : Step sys pool (.ran entry) pool') : Q entry.op := by
  -- The protocol that allows this kind of operation, and remembers nothing.
  have hHonors : pool.Honors (fun _ => (⟨fun _ _ _ => (), fun _ op => Q op⟩ : Protocol Sg Unit))
      (fun _ => ()) (fun _ _ _ => True) :=
    hRun.honors (fun request => (hProgram request).honors (I := fun _ => True) trivial
      fun _ _ _ hOp => ⟨hOp, fun _ => trivial⟩) hIdle
  cases hStep with
  | run pid request op next reply after hProc hExec => exact (hHonors pid request _ hProc).1

/-! ## Operations a pool may still perform -/

/-- A live program of the pool may still perform an operation in `Q`. -/
def Pool.MayReach (pool : Pool Sg σ κ ρ) (Q : Sg.Op → Prop) (pid : Nat) : Prop :=
  ∃ request program, pool.procs[pid]? = some ⟨request, some program⟩ ∧
    program.Reaches Q

section MayReach

variable {sys : System Sg σ κ ρ} {pool pool' : Pool Sg σ κ ρ} {event : Event Sg σ κ}
  {Q : Sg.Op → Prop} {pid : Nat}

theorem Step.mayReach_of_ran {entry : Entry Sg σ}
    (hStep : Step sys pool (.ran entry) pool') (hOp : Q entry.op) :
    pool.MayReach Q entry.pid := by
  cases hStep with
  | run pid request op next reply after hProc hExec =>
      exact ⟨request, _, hProc, Or.inl hOp⟩

/-- A step opens no way to an operation: what a program may perform after it, it
might have performed before. -/
theorem Step.mayReach (hStep : Step sys pool event pool')
    (hOld : pid < pool.procs.length) (hReach : pool'.MayReach Q pid) :
    pool.MayReach Q pid := by
  obtain ⟨request, program, hProc', hProgram⟩ := hReach
  cases hStep with
  | spawn other =>
      rw [List.getElem?_append_left hOld] at hProc'
      exact ⟨request, program, hProc', hProgram⟩
  | run actor actorRequest op next reply after hProc hExec =>
      by_cases hPid : actor = pid
      · subst hPid
        rw [List.getElem?_set_self hOld] at hProc'
        simp only [Option.some.injEq, Proc.mk.injEq] at hProc'
        obtain ⟨rfl, rfl⟩ := hProc'
        exact ⟨actorRequest, _, hProc, hProgram.of_next⟩
      · rw [List.getElem?_set_ne hPid] at hProc'
        exact ⟨request, program, hProc', hProgram⟩
  | stop other proc hProc =>
      by_cases hPid : other = pid
      · subst hPid
        rw [List.getElem?_set_self hOld] at hProc'
        simp at hProc'
      · rw [List.getElem?_set_ne hPid] at hProc'
        exact ⟨request, program, hProc', hProgram⟩
  | drift after hDrift => exact ⟨request, program, hProc', hProgram⟩

end MayReach

end Interleaving
