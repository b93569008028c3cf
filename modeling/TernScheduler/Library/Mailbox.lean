import TernScheduler.Library.Drive
import Mathlib.Logic.Relation

/-!
# Pools driven by messages

The programs of a pool are seldom started at will: a message arrives, and its
handler starts one.  A mailed pool is a pool together with the messages in flight.

* `MailStep` is one step: a message is posted, a message is handled, a client
  starts a program itself, or the pool moves without starting anything.
* `MailRun.projects` forgets the messages.  What is left is a run of the pool in
  which every program was started for a message, or by a client; and whatever held
  of a message when it was posted, and is kept by the steps of the pool, holds of
  it when it is handled, however long it was in flight.
* `MailDriver` drives a mailed pool along one particular run.
-/

namespace Interleaving

/-- How programs come to be started: the messages the environment may post, the
requests that handling a message may start, and the requests of clients. -/
structure Mailing (σ κ μ : Type) where
  posts : σ → μ → Prop
  handler : σ → μ → κ → Prop
  asks : σ → κ → Prop

/-- A pool and the messages in flight. -/
structure Mailed (Sg : Signature) (σ κ ρ μ : Type) where
  pool : Pool Sg σ κ ρ
  inFlight : List μ

variable {Sg : Signature} {σ κ ρ μ : Type}

/-- One step of a mailed pool.  Messages are handled in any order, each at most
once; one that starts nothing is ignored.  The steps of the pool satisfy the run
condition. -/
inductive MailStep (sys : System Sg σ κ ρ) (M : Mailing σ κ μ)
    (A : RunCondition Sg σ κ ρ) : Mailed Sg σ κ ρ μ → Mailed Sg σ κ ρ μ → Prop
  | post (mailed : Mailed Sg σ κ ρ μ) (message : μ)
      (hPosts : M.posts mailed.pool.shared message) :
      MailStep sys M A mailed { mailed with inFlight := mailed.inFlight ++ [message] }
  | ignore (mailed : Mailed Sg σ κ ρ μ) (index : Nat) (message : μ)
      (hMessage : mailed.inFlight[index]? = some message)
      (hHandler : ∀ request, ¬ M.handler mailed.pool.shared message request) :
      MailStep sys M A mailed { mailed with inFlight := mailed.inFlight.eraseIdx index }
  | handle (mailed : Mailed Sg σ κ ρ μ) (index : Nat) (message : μ) (request : κ)
      (pool' : Pool Sg σ κ ρ)
      (hMessage : mailed.inFlight[index]? = some message)
      (hHandler : M.handler mailed.pool.shared message request)
      (hStep : Step sys mailed.pool (.spawned request) pool')
      (hCondition : A mailed.pool (.spawned request) pool') :
      MailStep sys M A mailed ⟨pool', mailed.inFlight.eraseIdx index⟩
  | ask (mailed : Mailed Sg σ κ ρ μ) (request : κ) (pool' : Pool Sg σ κ ρ)
      (hAsks : M.asks mailed.pool.shared request)
      (hStep : Step sys mailed.pool (.spawned request) pool')
      (hCondition : A mailed.pool (.spawned request) pool') :
      MailStep sys M A mailed { mailed with pool := pool' }
  | move (mailed : Mailed Sg σ κ ρ μ) (event : Event Sg σ κ) (pool' : Pool Sg σ κ ρ)
      (hEvent : event.request = none)
      (hStep : Step sys mailed.pool event pool')
      (hCondition : A mailed.pool event pool') :
      MailStep sys M A mailed { mailed with pool := pool' }

/-- A finite run of a mailed pool. -/
abbrev MailRun (sys : System Sg σ κ ρ) (M : Mailing σ κ μ) (A : RunCondition Sg σ κ ρ) :
    Mailed Sg σ κ ρ μ → Mailed Sg σ κ ρ μ → Prop :=
  Relation.ReflTransGen (MailStep sys M A)

/-- The request is one that handling a message in `J` starts, or one of a client. -/
def Mailing.Starts (M : Mailing σ κ μ) (J : σ → μ → Prop) (shared : σ) (request : κ) : Prop :=
  (∃ message, J shared message ∧ M.handler shared message request) ∨
    M.asks shared request

/-- Programs are started for messages in `J`, or by clients. -/
def Mailing.startsFrom (M : Mailing σ κ μ) (J : σ → μ → Prop) : RunCondition Sg σ κ ρ :=
  fun pool event _ => ∀ request ∈ event.request, M.Starts J pool.shared request

variable {sys : System Sg σ κ ρ} {M : Mailing σ κ μ} {A : RunCondition Sg σ κ ρ}
  {first last : Mailed Sg σ κ ρ μ}

/-- **A mailed run is a run of its pool**, and what is known of the messages when
they are posted is known when they are handled. -/
theorem MailRun.projects {J : σ → μ → Prop} (hRun : MailRun sys M A first last)
    (hFirst : ∀ message ∈ first.inFlight, J first.pool.shared message)
    (hPosts : ∀ shared message, M.posts shared message → J shared message)
    (hKeeps : ∀ pool event pool' message, Run sys A first.pool pool →
      Step sys pool event pool' → J pool.shared message → J pool'.shared message) :
    Run sys (A.and (M.startsFrom J)) first.pool last.pool ∧
      ∀ message ∈ last.inFlight, J last.pool.shared message := by
  induction hRun with
  | refl => exact ⟨.refl _, hFirst⟩
  | tail _ hLast ih =>
      obtain ⟨hPool, hKnown⟩ := ih
      have hBefore := hPool.mono fun _ _ _ hBoth => hBoth.1
      have hAfter : ∀ {event pool'}, Step sys _ event pool' → ∀ message ∈ _,
          J pool'.shared message := fun hStep message hMessage =>
        hKeeps _ _ _ message hBefore hStep (hKnown message hMessage)
      cases hLast with
      | post message hAllowed =>
          refine ⟨hPool, fun other hOther => ?_⟩
          rcases List.mem_append.mp hOther with hOld | hNew
          · exact hKnown other hOld
          · obtain rfl := List.mem_singleton.mp hNew
            exact hPosts _ _ hAllowed
      | ignore index message hMessage hHandler =>
          exact ⟨hPool, fun other hOther => hKnown other (List.mem_of_mem_eraseIdx hOther)⟩
      -- the request comes from a message that was in flight
      | handle index message request pool' hMessage hHandler hStep hCondition =>
          refine ⟨.tail hPool hStep ⟨hCondition, ?_⟩,
            fun other hOther => hAfter hStep other (List.mem_of_mem_eraseIdx hOther)⟩
          rintro _ ⟨⟩
          exact Or.inl ⟨message, hKnown message (List.mem_of_getElem? hMessage), hHandler⟩
      | ask request pool' hAsks hStep hCondition =>
          refine ⟨.tail hPool hStep ⟨hCondition, ?_⟩, hAfter hStep⟩
          rintro _ ⟨⟩
          exact Or.inr hAsks
      | move event pool' hEvent hStep hCondition =>
          refine ⟨.tail hPool hStep ⟨hCondition, fun request hRequest => ?_⟩, hAfter hStep⟩
          rw [hEvent] at hRequest
          cases hRequest

/-! ## Driving a mailed pool -/

/-- A driver of the pool that also chooses the messages that are posted, the requests
that handling them starts, and those of clients. -/
structure MailDriver (sys : System Sg σ κ ρ) (μ C P : Type) extends Driver sys C where
  posting : P → σ → Option μ
  handling : σ → μ → Option κ
  asking : P → σ → Option κ

/-- One turn of a mailed pool. -/
inductive MailTurn (κ C P : Type)
  | post (choice : P)
  | handle (index : Nat)
  | ask (choice : P)
  | move (turn : Turn κ C)

namespace MailDriver

variable {C P : Type}

/-- Take a turn of the pool, if it can be taken and passes the check. -/
private def step (driver : MailDriver sys μ C P)
    (check : Pool Sg σ κ ρ → Event Sg σ κ → Pool Sg σ κ ρ → Bool)
    (pool : Pool Sg σ κ ρ) (turn : Turn κ C) : Option (Event Sg σ κ × Pool Sg σ κ ρ) :=
  (driver.take pool turn).filter fun taken => check pool taken.1 taken.2

/-- Take one turn, if it can be taken. -/
def takeMail (driver : MailDriver sys μ C P)
    (check : Pool Sg σ κ ρ → Event Sg σ κ → Pool Sg σ κ ρ → Bool)
    (mailed : Mailed Sg σ κ ρ μ) : MailTurn κ C P → Option (Mailed Sg σ κ ρ μ)
  | .post choice =>
      (driver.posting choice mailed.pool.shared).map fun message =>
        { mailed with inFlight := mailed.inFlight ++ [message] }
  | .handle index =>
      match mailed.inFlight[index]? with
      | none => none
      | some message =>
          match driver.handling mailed.pool.shared message with
          | none => none
          | some request =>
              (driver.step check mailed.pool (.spawn request)).map fun taken =>
                ⟨taken.2, mailed.inFlight.eraseIdx index⟩
  | .ask choice =>
      match driver.asking choice mailed.pool.shared with
      | none => none
      | some request =>
          (driver.step check mailed.pool (.spawn request)).map fun taken =>
            { mailed with pool := taken.2 }
  | .move turn =>
      match driver.step check mailed.pool turn with
      | none => none
      | some (event, pool') =>
          if event.request.isNone then some { mailed with pool := pool' } else none

/-- Take the turns in order. -/
def driveMail (driver : MailDriver sys μ C P)
    (check : Pool Sg σ κ ρ → Event Sg σ κ → Pool Sg σ κ ρ → Bool) :
    List (MailTurn κ C P) → Mailed Sg σ κ ρ μ → Option (Mailed Sg σ κ ρ μ)
  | [], mailed => some mailed
  | turn :: turns, mailed =>
      match driver.takeMail check mailed turn with
      | some mailed' => driver.driveMail check turns mailed'
      | none => none

variable {driver : MailDriver sys μ C P}
  {check : Pool Sg σ κ ρ → Event Sg σ κ → Pool Sg σ κ ρ → Bool}

private theorem of_step {pool pool' : Pool Sg σ κ ρ} {turn : Turn κ C} {event : Event Sg σ κ}
    (h : driver.step check pool turn = some (event, pool')) :
    driver.take pool turn = some (event, pool') ∧ check pool event pool' = true := by
  obtain ⟨hTake, hCheck⟩ := Option.filter_eq_some_iff.mp h
  exact ⟨hTake, hCheck⟩

/-- A turn that starts a program takes the step that starts it. -/
private theorem of_step_spawn {pool pool' : Pool Sg σ κ ρ} {request : κ} {event : Event Sg σ κ}
    (h : driver.step check pool (.spawn request) = some (event, pool')) :
    Step sys pool (.spawned request) pool' ∧
      check pool (.spawned request) pool' = true := by
  obtain ⟨hTake, hPassed⟩ := of_step h
  obtain rfl : event = .spawned request := (Prod.mk.inj (Option.some.inj hTake)).1.symm
  exact ⟨Driver.step_of_take hTake, hPassed⟩

/-- The driver keeps to the mailing, and what it chooses is in `J` and `Q`. -/
structure Follows (driver : MailDriver sys μ C P) (M : Mailing σ κ μ) (J : μ → Prop)
    (Q : κ → Prop) : Prop where
  posting : ∀ choice shared message, driver.posting choice shared = some message →
    M.posts shared message ∧ J message
  handling : ∀ shared message request, J message →
    driver.handling shared message = some request → M.handler shared message request ∧ Q request
  asking : ∀ choice shared request, driver.asking choice shared = some request →
    M.asks shared request ∧ Q request

variable {J : μ → Prop} {Q : κ → Prop}

/-- A turn that can be taken is a step, and what is known of the messages in flight
stays known. -/
theorem step_of_takeMail (hCheck : ∀ pool event pool', check pool event pool' = true →
      (∀ request ∈ event.request, Q request) → A pool event pool')
    (hFollows : driver.Follows M J Q)
    {mailed mailed' : Mailed Sg σ κ ρ μ} {turn : MailTurn κ C P}
    (hFlight : ∀ message ∈ mailed.inFlight, J message)
    (h : driver.takeMail check mailed turn = some mailed') :
    MailStep sys M A mailed mailed' ∧ ∀ message ∈ mailed'.inFlight, J message := by
  have hStarts : ∀ {request : κ}, Q request →
      ∀ other ∈ (Event.spawned request : Event Sg σ κ).request, Q other := by
    rintro request hRequest _ ⟨⟩
    exact hRequest
  cases turn with
  | post choice =>
      obtain ⟨message, hPosting, rfl⟩ := Option.map_eq_some_iff.mp h
      obtain ⟨hPosts, hNew⟩ := hFollows.posting _ _ _ hPosting
      refine ⟨.post mailed message hPosts, fun other hOther => ?_⟩
      rcases List.mem_append.mp hOther with hOld | hLast
      · exact hFlight other hOld
      · exact List.mem_singleton.mp hLast ▸ hNew
  | handle index =>
      have hRest : ∀ message ∈ mailed.inFlight.eraseIdx index, J message :=
        fun message hMessage => hFlight message (List.mem_of_mem_eraseIdx hMessage)
      simp only [takeMail] at h
      split at h
      · cases h
      · rename_i message hMessage
        split at h
        · cases h
        · rename_i request hSome
          obtain ⟨⟨event, pool'⟩, hStep, rfl⟩ := Option.map_eq_some_iff.mp h
          obtain ⟨hSpawn, hPassed⟩ := of_step_spawn hStep
          obtain ⟨hHandler, hRequest⟩ := hFollows.handling _ _ _
            (hFlight message (List.mem_of_getElem? hMessage)) hSome
          exact ⟨.handle mailed index message request pool' hMessage hHandler hSpawn
            (hCheck _ _ _ hPassed (hStarts hRequest)), hRest⟩
  | ask choice =>
      simp only [takeMail] at h
      split at h
      · cases h
      · rename_i request hAsking
        obtain ⟨⟨event, pool'⟩, hStep, rfl⟩ := Option.map_eq_some_iff.mp h
        obtain ⟨hSpawn, hPassed⟩ := of_step_spawn hStep
        obtain ⟨hAsks, hRequest⟩ := hFollows.asking _ _ _ hAsking
        exact ⟨.ask mailed request pool' hAsks hSpawn
          (hCheck _ _ _ hPassed (hStarts hRequest)), hFlight⟩
  | move turn =>
      simp only [takeMail] at h
      split at h
      · cases h
      · rename_i event pool' hStep
        obtain ⟨hTake, hPassed⟩ := of_step hStep
        split at h
        · rename_i hEvent
          have hNone := Option.isNone_iff_eq_none.mp hEvent
          cases h
          refine ⟨.move mailed event pool' hNone (Driver.step_of_take hTake)
            (hCheck _ _ _ hPassed fun request hRequest => ?_), hFlight⟩
          rw [hNone] at hRequest
          cases hRequest
        · cases h

/-- **Driving is running**: a driven pool that satisfies a test is reached by a run. -/
theorem exists_run_of_driveMail (hCheck : ∀ pool event pool', check pool event pool' = true →
      (∀ request ∈ event.request, Q request) → A pool event pool')
    (hFollows : driver.Follows M J Q)
    {test : Mailed Sg σ κ ρ μ → Bool} {turns : List (MailTurn κ C P)}
    {first : Mailed Sg σ κ ρ μ}
    (hFlight : ∀ message ∈ first.inFlight, J message)
    (h : (driver.driveMail check turns first).any test = true) :
    ∃ last, MailRun sys M A first last ∧ test last = true := by
  obtain ⟨last, hDrive, hTest⟩ := (Option.any_eq_true _ _).mp h
  refine ⟨last, ?_, hTest⟩
  clear h
  induction turns generalizing first with
  | nil =>
      obtain rfl := Option.some.inj hDrive
      exact .refl
  | cons turn turns ih =>
      rw [driveMail] at hDrive
      split at hDrive
      · rename_i mailed' hTake
        obtain ⟨hStep, hFlight'⟩ := step_of_takeMail hCheck hFollows hFlight hTake
        exact .head hStep (ih hFlight' hDrive)
      · cases hDrive

end MailDriver

end Interleaving
