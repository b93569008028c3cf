import TernScheduler.Library.Pool

/-!
# What a step does to the protocol states

Once the programs of a pool honor their protocols, a step of the pool can be
read off the protocol states alone: a program performs an operation its protocol
allows, or no protocol state moves.

* `Pool.Moves` is that reading, and `Step.moves` shows that every step of a run
  has it.
* `Pool.Moves.state_invariant` is the induction for a property of each protocol state
  by itself, and `Run.log_invariant` the one for a property of a state and the log.
* `Run.tokens_distinct` says that tokens which are drawn once belong to one
  program each.
-/

namespace Interleaving

variable {Sg : Signature} {σ κ ρ M T : Type}

/-- What one step can do, seen from the protocol states: at most start a program,
or perform an operation that the protocol of a program allows. -/
inductive Pool.Moves (sys : System Sg σ κ ρ) (P : κ → Protocol Sg M) (init : κ → M)
    (pool : Pool Sg σ κ ρ) : Event Sg σ κ → Pool Sg σ κ ρ → Prop
  | quiet (event : Event Sg σ κ) (pool' : Pool Sg σ κ ρ)
      (hShared : pool'.shared = pool.shared ∨ sys.drift pool.shared pool'.shared)
      (hLog : pool'.log = pool.log)
      (hOld : ∀ pid state, pool.stateOf P init pid = some state →
        pool'.stateOf P init pid = some state)
      (hNew : ∀ pid request state, pool'.stateOf P init pid = some (request, state) →
        pool.stateOf P init pid = some (request, state) ∨
          (event = .spawned request ∧ state = init request)) :
      Moves sys P init pool event pool'
  | performed (pid : Nat) (request : κ) (state : M) (op : Sg.Op) (reply : Sg.Reply op)
      (pool' : Pool Sg σ κ ρ)
      (hState : pool.stateOf P init pid = some (request, state))
      (hMay : (P request).may state op)
      (hExec : sys.exec pool.shared op reply pool'.shared)
      (hLog : pool'.log = ⟨pid, op, reply, pool.shared⟩ :: pool.log)
      (hStates : ∀ other, pool'.stateOf P init other =
        if other = pid then some (request, (P request).next state op reply)
        else pool.stateOf P init other) :
      Moves sys P init pool (.ran ⟨pid, op, reply, pool.shared⟩) pool'

variable {sys : System Sg σ κ ρ} {A : RunCondition Sg σ κ ρ} {P : κ → Protocol Sg M}
  {init : κ → M} {post : κ → M → ρ → Prop} {first pool pool' : Pool Sg σ κ ρ}
  {event : Event Sg σ κ}

theorem Pool.stateOf_idle (hIdle : first.Idle) (pid : Nat) :
    first.stateOf P init pid = none := by
  simp [Pool.stateOf, hIdle.1]

/-- **Inversion of a step**: the protocol states before and after it. -/
theorem Step.moves (hStep : Step sys pool event pool') (hOwned : pool.LogOwned)
    (hHonors : pool.Honors P init post) : pool.Moves sys P init event pool' := by
  cases hStep with
  | spawn request =>
      refine .quiet _ _ (Or.inl rfl) rfl (fun pid state hState => ?_)
        fun pid other state hState => ?_
      · -- who had a state was there before the spawn
        have hStarted : pid ≠ pool.procs.length := by
          rintro rfl
          simp [Pool.stateOf] at hState
        rw [Pool.stateOf_spawn hOwned, if_neg hStarted]
        exact hState
      · rw [Pool.stateOf_spawn hOwned] at hState
        split at hState
        · cases hState
          exact Or.inr ⟨rfl, rfl⟩
        · exact Or.inl hState
  | run pid request op next reply after hProc hExec =>
      exact .performed pid request _ op reply _ (Pool.stateOf_eq_some hProc)
        (hHonors pid request _ hProc).1 hExec rfl fun other => Pool.stateOf_run hProc other
  | stop pid proc hProc =>
      exact .quiet _ _ (Or.inl rfl) rfl
        (fun other _ hState => (Pool.stateOf_stop hProc other).trans hState)
        fun other _ _ hState => Or.inl ((Pool.stateOf_stop hProc other).symm.trans hState)
  | drift after hDrift =>
      exact .quiet _ _ (Or.inr hDrift) rfl (fun _ _ hState => hState)
        fun _ _ _ hState => Or.inl hState

/-- A property of each protocol state by itself: it holds when a program starts,
and every operation the protocol allows keeps it. -/
theorem Pool.Moves.state_invariant {I : κ → M → Prop}
    (hMoves : pool.Moves sys P init event pool')
    (hStart : ∀ request, event.request = some request → I request (init request))
    (hNext : ∀ request state op reply, I request state → (P request).may state op →
      sys.exec pool.shared op reply pool'.shared →
        I request ((P request).next state op reply))
    (hBefore : ∀ pid request state, pool.stateOf P init pid = some (request, state) →
      I request state) :
    ∀ pid request state, pool'.stateOf P init pid = some (request, state) →
      I request state := by
  intro pid request state hState
  cases hMoves with
  | quiet _ _ _ _ _ hNew =>
      rcases hNew pid request state hState with hOld | ⟨rfl, rfl⟩
      · exact hBefore pid request state hOld
      · exact hStart request rfl
  | performed actor actorRequest before op reply _ hActor hMay hExec _ hStates =>
      rw [hStates] at hState
      split at hState
      · cases hState
        exact hNext _ _ _ _ (hBefore actor _ before hActor) hMay hExec
      · exact hBefore pid request state hState

/-- A property of each protocol state and the log: it holds of a program that has
performed nothing, every operation of the program keeps it, and so do the operations
of the others. -/
theorem Run.log_invariant {I : Nat → κ → M → List (Entry Sg σ) → Prop}
    (hProgram : ∀ request,
      (sys.program request).Honors (P request) (post request) (init request))
    (hRun : Run sys A first pool) (hIdle : first.Idle)
    (hStart : ∀ pid request log, (∀ entry ∈ log, entry.pid ≠ pid) →
      I pid request (init request) log)
    (hOwn : ∀ request state log, ∀ entry : Entry Sg σ, I entry.pid request state log →
      (P request).may state entry.op →
        I entry.pid request ((P request).next state entry.op entry.reply) (entry :: log))
    (hOther : ∀ pid request state log, ∀ entry : Entry Sg σ, entry.pid ≠ pid →
      I pid request state log → I pid request state (entry :: log)) :
    ∀ pid request state, pool.stateOf P init pid = some (request, state) →
      I pid request state pool.log := by
  refine hRun.invariant (I := fun pool => ∀ pid request state,
    pool.stateOf P init pid = some (request, state) → I pid request state pool.log) ?_ ?_
  · intro pid request state hState
    rw [Pool.stateOf_idle hIdle] at hState
    cases hState
  · intro pool event pool' hBefore hAll hStep _ pid request state hState
    have hOwned := hBefore.logOwned hIdle
    cases hStep.moves hOwned (hBefore.honors hProgram hIdle) with
    | quiet _ _ _ hLog _ hNew =>
        rw [hLog]
        rcases hNew pid request state hState with hOld | ⟨rfl, rfl⟩
        · exact hAll pid request state hOld
        · cases hStep with
          | spawn =>
              by_cases hKnown : pool.stateOf P init pid = some (request, init request)
              · exact hAll pid request _ hKnown
              · -- the caller has just come, and the log has nothing of it
                refine hStart pid request pool.log fun entry hEntry hPid => hKnown ?_
                have hLt := hOwned entry hEntry
                rw [hPid] at hLt
                rw [Pool.stateOf_spawn hOwned, if_neg (Nat.ne_of_lt hLt)] at hState
                exact hState
    | performed actor actorRequest before op reply _ hActor hMay _ hLog hStates =>
        rw [hLog]
        rw [hStates] at hState
        split at hState
        · rename_i hPid
          subst hPid
          cases hState
          exact hOwn _ before pool.log ⟨pid, op, reply, pool.shared⟩
            (hAll pid _ before hActor) hMay
        · rename_i hPid
          exact hOther pid request state pool.log _ (fun h => hPid h.symm)
            (hAll pid request state hState)

/-! ## Two protocols of one program -/

section Related

variable {N : Type}

/-- Two replays of one log stay related. -/
private theorem replay_related {P : Protocol Sg M} {Q : Protocol Sg N} {R : M → N → Prop}
    {init : M} {init' : N} {pid : Nat} (hInit : R init init')
    (hNext : ∀ state state' op reply, R state state' →
      R (P.next state op reply) (Q.next state' op reply)) (log : List (Entry Sg σ)) :
    R (P.replay init pid log) (Q.replay init' pid log) := by
  induction log with
  | nil => exact hInit
  | cons entry log ih =>
      simp only [Protocol.replay]
      split
      · exact hNext _ _ _ _ ih
      · exact ih

/-- The states of two protocols that every operation keeps related are related all
along. -/
theorem Pool.stateOf_related {pool : Pool Sg σ κ ρ} {P : κ → Protocol Sg M}
    {Q : κ → Protocol Sg N} {init : κ → M} {init' : κ → N} {R : M → N → Prop}
    (hInit : ∀ request, R (init request) (init' request))
    (hNext : ∀ request state state' op reply, R state state' →
      R ((P request).next state op reply) ((Q request).next state' op reply))
    {pid : Nat} {request request' : κ} {state : M} {state' : N}
    (hState : pool.stateOf P init pid = some (request, state))
    (hState' : pool.stateOf Q init' pid = some (request', state')) :
    request = request' ∧ R state state' := by
  obtain ⟨proc, hProc, hSame⟩ := Option.map_eq_some_iff.mp hState
  obtain ⟨proc', hProc', hSame'⟩ := Option.map_eq_some_iff.mp hState'
  obtain rfl : proc = proc' := Option.some.inj (hProc.symm.trans hProc')
  cases hSame
  cases hSame'
  exact ⟨rfl, replay_related (hInit _) (hNext _) pool.log⟩

end Related

/-! ## Tokens -/

section Tokens

variable {token : M → Option T} {drawn : (op : Sg.Op) → Sg.Reply op → Option T}

/-- The token a replay ends with was drawn in the log. -/
private theorem drawn_of_replay {P : Protocol Sg M} {init : M} {pid : Nat} {value : T}
    (hInit : token init = none)
    (hNext : ∀ state op reply, token (P.next state op reply) = token state ∨
      ∃ new, drawn op reply = some new ∧ token (P.next state op reply) = some new)
    (log : List (Entry Sg σ)) (hToken : token (P.replay init pid log) = some value) :
    ∃ entry ∈ log, entry.pid = pid ∧ drawn entry.op entry.reply = some value := by
  induction log with
  | nil =>
      rw [Protocol.replay_nil, hInit] at hToken
      cases hToken
  | cons entry log ih =>
      -- what an older entry drew is still in the log
      have hEarlier : token (P.replay init pid log) = some value →
          ∃ other ∈ entry :: log, other.pid = pid ∧
            drawn other.op other.reply = some value := by
        intro hOld
        obtain ⟨other, hOther, hOwn⟩ := ih hOld
        exact ⟨other, List.mem_cons_of_mem _ hOther, hOwn⟩
      by_cases hPid : entry.pid = pid
      · rw [Protocol.replay, if_pos hPid] at hToken
        rcases hNext (P.replay init pid log) entry.op entry.reply with
          hSame | ⟨new, hDrawn, hNew⟩
        · exact hEarlier (hSame.symm.trans hToken)
        · obtain rfl : new = value := Option.some.inj (hNew.symm.trans hToken)
          exact ⟨entry, List.mem_cons_self, hPid, hDrawn⟩
      · rw [Protocol.replay, if_neg hPid] at hToken
        exact hEarlier hToken

/-- The token of a program was drawn by that program. -/
theorem Pool.drawn_of_token (hInit : ∀ request, token (init request) = none)
    (hNext : ∀ request state op reply,
      token ((P request).next state op reply) = token state ∨
        ∃ new, drawn op reply = some new ∧
          token ((P request).next state op reply) = some new)
    {pid : Nat} {request : κ} {state : M} {value : T}
    (hState : pool.stateOf P init pid = some (request, state))
    (hToken : token state = some value) :
    ∃ entry ∈ pool.log, entry.pid = pid ∧ drawn entry.op entry.reply = some value := by
  obtain ⟨proc, -, hProc⟩ := Option.map_eq_some_iff.mp hState
  cases hProc
  exact drawn_of_replay (hInit _) (hNext _) pool.log hToken

/-- A token belongs to one program. -/
def TokensDistinct (token : M → Option T) (states : Nat → Option (κ × M)) : Prop :=
  ∀ pid pid' request request' state state' value,
    states pid = some (request, state) → states pid' = some (request', state') →
    token state = some value → token state' = some value → pid = pid'

/-- A step that draws no token drawn before keeps the tokens distinct. -/
theorem Pool.Moves.tokensDistinct (hInit : ∀ request, token (init request) = none)
    (hNext : ∀ request state op reply,
      token ((P request).next state op reply) = token state ∨
        ∃ new, drawn op reply = some new ∧
          token ((P request).next state op reply) = some new)
    (hMoves : pool.Moves sys P init event pool')
    (hFresh : ∀ entry ∈ event.entry, ∀ value ∈ drawn entry.op entry.reply,
      ∀ other ∈ pool.log, drawn other.op other.reply ≠ some value)
    (hDistinct : TokensDistinct token (pool.stateOf P init)) :
    TokensDistinct token (pool'.stateOf P init) := by
  intro pid pid' request request' state state' value hState hState' hToken hToken'
  cases hMoves with
  | quiet _ _ _ _ _ hNew =>
      rcases hNew pid request state hState with hOld | ⟨-, rfl⟩
      · rcases hNew pid' request' state' hState' with hOld' | ⟨-, rfl⟩
        · exact hDistinct pid pid' request request' state state' value hOld hOld' hToken
            hToken'
        · rw [hInit] at hToken'
          cases hToken'
      · rw [hInit] at hToken
        cases hToken
  | performed actor actorRequest before op reply _ hActor _ _ _ hStates =>
      -- A token that is drawn now is not the token of any program.
      have hUnused : ∀ {other : Nat} {otherRequest : κ} {otherState : M},
          drawn op reply = some value →
          pool.stateOf P init other = some (otherRequest, otherState) →
          token otherState ≠ some value := by
        intro other otherRequest otherState hDraws hOther hOwn
        obtain ⟨entry, hEntry, -, hDrew⟩ :=
          Pool.drawn_of_token hInit hNext hOther hOwn
        exact hFresh _ rfl value hDraws entry hEntry hDrew
      rw [hStates] at hState hState'
      split at hState
      · rename_i hPid
        cases hState
        split at hState'
        · rename_i hPid'
          rw [hPid, hPid']
        · rcases hNext _ before op reply with hSame | ⟨new, hDraws, hNew⟩
          · exact hPid ▸ hDistinct actor pid' _ request' before state' value hActor hState'
              (hSame.symm.trans hToken) hToken'
          · obtain rfl : new = value := Option.some.inj (hNew.symm.trans hToken)
            exact absurd hToken' (hUnused hDraws hState')
      · split at hState'
        · rename_i hPid'
          cases hState'
          rcases hNext _ before op reply with hSame | ⟨new, hDraws, hNew⟩
          · exact hPid' ▸ hDistinct pid actor request _ state before value hState hActor
              hToken (hSame.symm.trans hToken')
          · obtain rfl : new = value := Option.some.inj (hNew.symm.trans hToken')
            exact absurd hToken (hUnused hDraws hState)
        · exact hDistinct pid pid' request request' state state' value hState hState' hToken
            hToken'

end Tokens

end Interleaving
