import TernScheduler.Controller.Tenure
import TernScheduler.Library.Ledger
import Mathlib.Data.Int.Order.Basic

/-!
# The schedule table keeps a ledger of leases

Lease runners use the lease columns of the schedule table as a ledger.  The holder
of a job is the owner of its row, and a term begins when the lease write is applied
and lasts for the lease time of the node.

* `TenureEffect` is what an operation of a lease runner does to the schedule table.
* `Records` says that a ledger is a true account of a state of the system.
* `ledger_of_run` is the refinement: in a run in which clocks agree, lease ids are
  unique and takeovers wait their turn, fair moves keep such a ledger.
-/

namespace TernScheduler

open Interleaving Database Leasing

/-! ## What a lease runner does to the schedule table -/

variable {α : Type} {reading : BeforeDateReading}

/-- What an operation of a lease runner does to the schedule table: nothing, take
the lease of a job, or give one up. -/
inductive TenureEffect (reading : BeforeDateReading) (request : LeaseRequest α)
    (tenure : Tenure) (db after : Database) (act : Act) (reply : act.Reply) : Prop
  | kept (hGranted : act.granted reply = none) (hGaveUp : act.gaveUp reply = false)
      (hJobs : ∀ pk, after.job pk = db.job pk)
  | took (pk : PrimaryKeyType) (leaseId : LeaseIdType) (row : ScheduledJobDataModel)
      (hLeaseId : tenure.leaseId = some leaseId) (hJob : tenure.job = none)
      (hGranted : act.granted reply = some pk) (hGaveUp : act.gaveUp reply = false)
      (hDrawn : act.drawn reply = none) (hWritten : act.ownerWritten = some leaseId)
      (hOwner : row.leaseOwner = some leaseId)
      (hExpires : row.leaseExpires = some request.expires) (hHeld : row.updateState ≠ none)
      (hFree : ∀ old, db.job pk = some old → old.updateState = none ∨
        ∃ expires, old.leaseExpires = some expires ∧ reading request.now expires = true)
      (hJobs : ∀ other, after.job other = if other = pk then some row else db.job other)
  | ended (pk : PrimaryKeyType) (leaseId : LeaseIdType) (old row : ScheduledJobDataModel)
      (hLeaseId : tenure.leaseId = some leaseId)
      (hGranted : act.granted reply = none) (hGaveUp : act.gaveUp reply = true)
      (hDrawn : act.drawn reply = none) (hOld : db.job pk = some old)
      (hOwner : old.leaseOwner = some leaseId)
      (hRow : (row.leaseOwner = none ∧ row.updateState = none) ∨
        (row.leaseOwner = old.leaseOwner ∧ row.updateState = old.updateState))
      (hJobs : ∀ other, after.job other = if other = pk then some row else db.job other)

/-- **Inversion of an operation of a lease runner.** -/
theorem MayWork.effect {request : LeaseRequest α} {tenure : Tenure} {scope : Scope}
    {act : Act} {reply : act.Reply} {db after : Database}
    (hMay : MayWork request tenure ⟨scope, act⟩)
    (hExec : Exec reading db act reply after) :
    TenureEffect reading request tenure db after act reply := by
  cases hExec.scheduleEffect with
  | kept hNone hJobs =>
      refine .kept ?_ ?_ hJobs
      · cases act with
        | createSchedule row =>
            cases reply with
            | ok done => exact absurd trivial hNone
            | error e => rfl
        | updateSchedule pk newValues conditional =>
            rcases reply with e | _ | count
            · rfl
            · rfl
            · exact absurd trivial hNone
        | _ => rfl
      · cases act with
        | updateSchedule pk newValues conditional =>
            rcases reply with e | _ | count
            · rfl
            · rfl
            · exact absurd trivial hNone
        | _ => rfl
  | created row hAbsent hJobs =>
      obtain ⟨hJob, hHeld, hExpires, hDrew, hOwner⟩ := hMay.1
      obtain ⟨leaseId, hLeaseId⟩ := Option.ne_none_iff_exists'.mp hDrew
      refine .took row.pk leaseId row hLeaseId hJob rfl rfl rfl (hOwner.trans hLeaseId)
        (hOwner.trans hLeaseId) hExpires hHeld (fun old hOld => ?_) hJobs
      rw [hAbsent] at hOld
      cases hOld
  | updated pk newValues conditional count old hOld hHolds hJobs =>
      obtain ⟨leaseId, hLeaseId, ⟨hJob, hTakes⟩ | hGives⟩ := hMay.1
      · -- the row was free, or its lease had expired by the clock of the call
        obtain ⟨hOwner, hExpires, ⟨state, hState⟩, hCondition⟩ := hTakes
        refine .took pk leaseId (newValues.apply old) hLeaseId hJob
          (by simp [Act.granted, hOwner]) (by simp [Act.gaveUp, hOwner]) rfl
          (by simp [Act.ownerWritten, hOwner])
          (by simp [ScheduledJobPatch.apply, hOwner])
          (by simp [ScheduledJobPatch.apply, hExpires])
          (by simp [ScheduledJobPatch.apply, hState]) (fun row hRow => ?_) hJobs
        obtain rfl : old = row := Option.some.inj (hOld.symm.trans hRow)
        rcases hCondition with rfl | ⟨-, rfl⟩
        · exact Or.inl (holds_notUpdating.mp hHolds)
        · exact Or.inr ((holds_leaseExpiredBefore request.now).mp hHolds).2
      · -- the row was its own: it is released, or left with its owner for repair
        obtain ⟨rfl, hValues⟩ := hGives
        have hUnowned : newValues.leaseOwner.join = none := by
          rcases hValues with ⟨hOwner, -⟩ | ⟨hOwner, -⟩ <;> simp [hOwner]
        refine .ended pk leaseId old (newValues.apply old) hLeaseId
          (by simp [Act.granted, hUnowned]) (by simp [Act.gaveUp, hUnowned]) rfl hOld
          ((holds_leasedBy leaseId).mp hHolds).2 ?_ hJobs
        rcases hValues with ⟨hOwner, hState⟩ | ⟨hOwner, hState⟩
        · exact Or.inl (by simp [ScheduledJobPatch.apply, hOwner, hState])
        · exact Or.inr (by simp [ScheduledJobPatch.apply, hOwner, hState])

/-- A call takes one lease at most. -/
theorem MayWork.keepsJob {request : LeaseRequest α} {tenure : Tenure} {scope : Scope}
    {act : Act} {reply : act.Reply} {db after : Database}
    (hMay : MayWork request tenure ⟨scope, act⟩)
    (hExec : Exec reading db act reply after) :
    act.granted reply = none ∨ tenure.job = none := by
  cases hMay.effect hExec with
  | kept hGranted _ _ => exact Or.inl hGranted
  | took _ _ _ _ hJob => exact Or.inr hJob
  | ended _ _ _ _ _ hGranted => exact Or.inl hGranted

theorem MayWork.keepsId {request : LeaseRequest α} {tenure : Tenure} {scope : Scope}
    {act : Act} (hMay : MayWork request tenure ⟨scope, act⟩) (reply : act.Reply) :
    act.drawn reply = none ∨ tenure = {} := by
  cases act with
  | createLeaseId => exact Or.inr hMay.1
  | _ => exact Or.inl rfl

/-! ## Runs -/

/-- A state of the system of lease runners. -/
abbrev RunnerPool (α : Type) :=
  Pool signature Database (LeaseRequest α) (Except JsError (Option α))

/-- The request and the tenure of a call. -/
def tenureOf (pool : RunnerPool α) (pid : Nat) : Option (LeaseRequest α × Tenure) :=
  pool.stateOf tenancy (fun _ => {}) pid

/-- The request a call was started for. -/
def requestOf (pool : RunnerPool α) (pid : Nat) : Option (LeaseRequest α) :=
  pool.procs[pid]?.map (·.request)

/-- The node's clock is the one all nodes share: a call is given a time that has
come. -/
def clocksAgree : RunCondition signature Database (LeaseRequest α)
    (Except JsError (Option α)) :=
  fun pool event _ => ∀ request ∈ event.request, request.now ≤ pool.shared.clock

/-- The lease write of the call was applied no later than the time its expiry counts
from, and the zone's offset does not grow while the lease lasts. -/
def LeaseRequest.Punctual (request : LeaseRequest α) (applied : Date) : Prop :=
  applied ≤ request.now ∧
    request.node.zone.offsetOfLocal
        (request.node.zone.localTime request.now + request.leaseTime) ≤
      request.node.zone.offsetAt request.now

/-- A lease that was granted may be taken over without taking it from anybody: it
was written in time, or its term has ended, or it was given up. -/
def MayPassOn (pool : RunnerPool α) (grant : SchedulerEntry) : Prop :=
  ∀ request ∈ requestOf pool grant.pid,
    request.Punctual grant.before.clock ∨
      grant.before.clock + request.leaseTime < pool.shared.clock ∨
      ∃ later ∈ pool.log, later.pid = grant.pid ∧ later.op.act.gaveUp later.reply = true

/-- Every lease that is taken over may be passed on. -/
def takeoversInTurn : RunCondition signature Database (LeaseRequest α)
    (Except JsError (Option α)) :=
  fun pool event _ => ∀ entry ∈ event.entry,
    ∀ pk ∈ entry.op.act.granted entry.reply, ∀ row ∈ pool.shared.job pk,
      row.updateState ≠ none →
      ∀ grant ∈ pool.log, grant.op.act.granted grant.reply = some pk →
        grant.op.act.ownerWritten = row.leaseOwner → MayPassOn pool grant

/-- Clocks agree, lease ids are unique, and takeovers wait their turn. -/
def leasesInTurn : RunCondition signature Database (LeaseRequest α)
    (Except JsError (Option α)) :=
  fun pool event pool' => clocksAgree pool event pool' ∧
    freshLeaseIds pool event pool' ∧ takeoversInTurn pool event pool'

/-! ## The ledger of a state -/

/-- The ledger's account of one call that drew a lease id. -/
structure Accounted (pool : RunnerPool α) (ledger : Ledger PrimaryKeyType LeaseIdType Date)
    (pid : Nat) (request : LeaseRequest α) (tenure : Tenure) (leaseId : LeaseIdType) :
    Prop where
  stopped : ledger.stopped leaseId ↔ tenure.stopped = true
  ungranted : tenure.job = none → ledger.term leaseId = none
  granted : ∀ pk, tenure.job = some pk → ∃ entry ∈ pool.log, entry.pid = pid ∧
    entry.op.act.granted entry.reply = some pk ∧
    entry.op.act.ownerWritten = some leaseId ∧
    ledger.term leaseId = some (pk, entry.before.clock + request.leaseTime)
  expiry : ∀ pk row, tenure.stopped = false → pool.shared.job pk = some row →
    row.leaseOwner = some leaseId → row.leaseExpires = some request.expires

/-- The ledger is a true account of the state. -/
structure Records (pool : RunnerPool α)
    (ledger : Ledger PrimaryKeyType LeaseIdType Date) : Prop where
  clock : ledger.clock = pool.shared.clock
  holder : ∀ pk, ledger.holder pk = (pool.shared.job pk).bind (·.leaseOwner)
  free : ∀ pk row, pool.shared.job pk = some row → row.updateState = none →
    row.leaseOwner = none
  drawn : ∀ leaseId, ledger.term leaseId ≠ none ∨ ledger.stopped leaseId →
    ∃ pid request tenure, tenureOf pool pid = some (request, tenure) ∧
      tenure.leaseId = some leaseId
  owner : ∀ pk row leaseId, pool.shared.job pk = some row →
    row.leaseOwner = some leaseId →
    ∃ pid request tenure, tenureOf pool pid = some (request, tenure) ∧
      tenure.leaseId = some leaseId ∧ tenure.job = some pk
  accounted : ∀ pid request tenure leaseId, tenureOf pool pid = some (request, tenure) →
    tenure.leaseId = some leaseId → Accounted pool ledger pid request tenure leaseId

variable {pool pool' : RunnerPool α} {ledger ledger' : Ledger PrimaryKeyType LeaseIdType Date}
  {event : Event signature Database (LeaseRequest α)} {clock : Date}

/-- The account of a call stays true while others act. -/
theorem Accounted.frame {pid : Nat} {request : LeaseRequest α} {tenure : Tenure}
    {leaseId : LeaseIdType} (hAccount : Accounted pool ledger pid request tenure leaseId)
    (hOver : ledger'.stopped leaseId ↔ ledger.stopped leaseId)
    (hTerm : ledger'.term leaseId = ledger.term leaseId)
    (hLog : ∀ entry ∈ pool.log, entry ∈ pool'.log)
    (hRows : ∀ pk row, pool'.shared.job pk = some row → row.leaseOwner = some leaseId →
      pool.shared.job pk = some row) :
    Accounted pool' ledger' pid request tenure leaseId where
  stopped := hOver.trans hAccount.stopped
  ungranted hJob := hTerm.trans (hAccount.ungranted hJob)
  granted pk hJob := by
    obtain ⟨entry, hEntry, hPid, hGranted, hWritten, hOld⟩ := hAccount.granted pk hJob
    exact ⟨entry, hLog entry hEntry, hPid, hGranted, hWritten, hTerm.trans hOld⟩
  expiry pk row hOpen hRow hOwner :=
    hAccount.expiry pk row hOpen (hRows pk row hRow hOwner) hOwner

theorem requestOf_of_tenure {pid : Nat} {request : LeaseRequest α} {tenure : Tenure}
    (hTenure : tenureOf pool pid = some (request, tenure)) :
    requestOf pool pid = some request := by
  obtain ⟨proc, hProc, hState⟩ := Option.map_eq_some_iff.mp hTenure
  cases hState
  simp [requestOf, hProc]

/-- A call that gave its lease up has done so for good. -/
theorem over_of_gaveUp {pid : Nat} {request : LeaseRequest α} {tenure : Tenure}
    (hTenure : tenureOf pool pid = some (request, tenure)) {entry : SchedulerEntry}
    (hEntry : entry ∈ pool.log) (hPid : entry.pid = pid)
    (hGaveUp : entry.op.act.gaveUp entry.reply = true) : tenure.stopped = true := by
  obtain ⟨proc, -, hState⟩ := Option.map_eq_some_iff.mp hTenure
  cases hState
  generalize pool.log = log at hEntry
  induction log with
  | nil => cases hEntry
  | cons later log ih =>
      by_cases hLater : later.pid = pid
      · rw [Protocol.replay, if_pos hLater]
        show (((tenancy proc.request).replay {} pid log).stopped ||
          later.op.act.gaveUp later.reply) = true
        rcases List.mem_cons.mp hEntry with rfl | hOld
        · simp [hGaveUp]
        · simp [ih hOld]
      · rw [Protocol.replay, if_neg hLater]
        rcases List.mem_cons.mp hEntry with rfl | hOld
        · exact absurd hPid hLater
        · exact ih hOld

/-! ## A step keeps the ledger true -/

section Performed

variable {actor : Nat} {request : LeaseRequest α} {tenure : Tenure} {act : Act}
  {reply : act.Reply}

/-- What a performed operation leaves of the calls and the log. -/
structure Performed (pool pool' : RunnerPool α) (actor : Nat) (request : LeaseRequest α)
    (tenure : Tenure) (act : Act) (reply : act.Reply) : Prop where
  before : tenureOf pool actor = some (request, tenure)
  keepsId : act.drawn reply = none ∨ tenure = {}
  keepsJob : act.granted reply = none ∨ tenure.job = none
  clock : pool'.shared.clock = pool.shared.clock
  log : ∃ scope, pool'.log = ⟨actor, ⟨scope, act⟩, reply, pool.shared⟩ :: pool.log
  tenures : ∀ other, tenureOf pool' other =
    if other = actor then some (request, tenure.next act reply) else tenureOf pool other

namespace Performed

variable (hPerformed : Performed pool pool' actor request tenure act reply)

include hPerformed

theorem mem_log {entry : SchedulerEntry} (hEntry : entry ∈ pool.log) :
    entry ∈ pool'.log := by
  obtain ⟨scope, hLog⟩ := hPerformed.log
  rw [hLog]
  exact List.mem_cons_of_mem _ hEntry

/-- The calls keep their ids and their jobs. -/
theorem persists {pid : Nat} {other : LeaseRequest α} {old : Tenure}
    (hOld : tenureOf pool pid = some (other, old)) :
    ∃ new, tenureOf pool' pid = some (other, new) ∧
      (∀ leaseId, old.leaseId = some leaseId → new.leaseId = some leaseId) ∧
      ∀ pk, old.job = some pk → new.job = some pk := by
  rw [hPerformed.tenures]
  by_cases hPid : pid = actor
  · subst hPid
    obtain ⟨rfl, rfl⟩ := Prod.mk.inj (Option.some.inj (hPerformed.before.symm.trans hOld))
    refine ⟨_, if_pos rfl, fun leaseId hLeaseId => ?_, fun pk hJob => ?_⟩
    · rcases hPerformed.keepsId with hNone | rfl
      · simp [Tenure.next, hNone, hLeaseId]
      · cases hLeaseId
    · rcases hPerformed.keepsJob with hNone | hNone
      · simp [Tenure.next, hNone, hJob]
      · rw [hNone] at hJob
        cases hJob
  · exact ⟨old, by rw [if_neg hPid, hOld], fun _ h => h, fun _ h => h⟩

/-- An id that was drawn stays so. -/
theorem drawn_kept {leaseId : LeaseIdType}
    (hDrew : ∃ pid other old, tenureOf pool pid = some (other, old) ∧
      old.leaseId = some leaseId) :
    ∃ pid other new, tenureOf pool' pid = some (other, new) ∧ new.leaseId = some leaseId := by
  obtain ⟨pid, other, old, hOld, hHeld⟩ := hDrew
  obtain ⟨new, hNew, hKept, -⟩ := hPerformed.persists hOld
  exact ⟨pid, other, new, hNew, hKept leaseId hHeld⟩

/-- An id that was drawn for a job stays so. -/
theorem owner_kept {leaseId : LeaseIdType} {pk : PrimaryKeyType}
    (hDrew : ∃ pid other old, tenureOf pool pid = some (other, old) ∧
      old.leaseId = some leaseId ∧ old.job = some pk) :
    ∃ pid other new, tenureOf pool' pid = some (other, new) ∧
      new.leaseId = some leaseId ∧ new.job = some pk := by
  obtain ⟨pid, other, old, hOld, hHeld, hJob⟩ := hDrew
  obtain ⟨new, hNew, hKept, hKeptJob⟩ := hPerformed.persists hOld
  exact ⟨pid, other, new, hNew, hKept leaseId hHeld, hKeptJob pk hJob⟩

/-- After an operation of a call that has its id, the id is its own, and the other calls are as
they were. -/
theorem tenure_cases (hDistinct : TokensDistinct Tenure.leaseId (tenureOf pool))
    {leaseId : LeaseIdType} (hLeaseId : tenure.leaseId = some leaseId)
    (hDrawn : act.drawn reply = none) {pid : Nat} {other : LeaseRequest α} {new : Tenure}
    {known : LeaseIdType} (hNew : tenureOf pool' pid = some (other, new))
    (hKnown : new.leaseId = some known) :
    (pid = actor ∧ other = request ∧ new = tenure.next act reply ∧ known = leaseId) ∨
      (known ≠ leaseId ∧ tenureOf pool pid = some (other, new)) := by
  rw [hPerformed.tenures] at hNew
  split at hNew
  · rename_i hPid
    obtain ⟨rfl, rfl⟩ := Prod.mk.inj (Option.some.inj hNew)
    refine Or.inl ⟨hPid, rfl, rfl, ?_⟩
    have hSame : leaseId = known := by simpa [Tenure.next, hDrawn, hLeaseId] using hKnown
    exact hSame.symm
  · rename_i hPid
    refine Or.inr ⟨?_, hNew⟩
    rintro rfl
    exact hPid (hDistinct pid actor _ _ _ _ known hNew hPerformed.before hKnown hLeaseId)

/-- An operation that touches no lease keeps the ledger as it is. -/
theorem records_of_kept (hRecords : Records pool ledger)
    (hFresh : ∀ leaseId, act.drawn reply = some leaseId → ∀ pid other old,
      tenureOf pool pid = some (other, old) → old.leaseId ≠ some leaseId)
    (hGranted : act.granted reply = none) (hGaveUp : act.gaveUp reply = false)
    (hJobs : ∀ pk, pool'.shared.job pk = pool.shared.job pk) : Records pool' ledger where
  clock := hRecords.clock.trans hPerformed.clock.symm
  holder pk := by rw [hJobs, hRecords.holder]
  free pk row hRow := hRecords.free pk row (hJobs pk ▸ hRow)
  drawn leaseId hKnown := hPerformed.drawn_kept (hRecords.drawn leaseId hKnown)
  owner pk row leaseId hRow hOwner :=
    hPerformed.owner_kept (hRecords.owner pk row leaseId (hJobs pk ▸ hRow) hOwner)
  accounted pid other new leaseId hNew hLeaseId := by
    have hFrame : ∀ {old : Tenure}, tenureOf pool pid = some (other, old) →
        old.leaseId = some leaseId → Accounted pool' ledger pid other old leaseId :=
      fun hOld hHeld => (hRecords.accounted pid other _ leaseId hOld hHeld).frame Iff.rfl rfl
        (fun _ => hPerformed.mem_log) fun pk row hRow _ => hJobs pk ▸ hRow
    rw [hPerformed.tenures] at hNew
    split at hNew
    · rename_i hPid
      subst hPid
      cases hNew
      cases hDrawn : act.drawn reply with
      | none =>
          have hSame : tenure.next act reply = tenure := by
            simp [Tenure.next, hDrawn, hGranted, hGaveUp]
          rw [hSame] at hLeaseId ⊢
          exact hFrame hPerformed.before hLeaseId
      | some drawn =>
          -- The id is new, so the ledger knows nothing of it.
          obtain rfl : drawn = leaseId := by simpa [Tenure.next, hDrawn] using hLeaseId
          have hUnused := hFresh drawn hDrawn
          have hBlank : tenure = {} := by
            rcases hPerformed.keepsId with hNone | hBlank
            · rw [hDrawn] at hNone
              cases hNone
            · exact hBlank
          have hUnknown : ¬ (ledger.term drawn ≠ none ∨ ledger.stopped drawn) := fun hKnown => by
            obtain ⟨owner, ownerRequest, old, hOld, hHeld⟩ := hRecords.drawn drawn hKnown
            exact hUnused owner ownerRequest old hOld hHeld
          subst hBlank
          refine ⟨?_, fun _ => ?_, fun pk hJob => ?_, fun pk row _ hRow hOwner => ?_⟩
          · simpa [Tenure.next, hGaveUp] using fun hOver => hUnknown (Or.inr hOver)
          · exact not_not.mp fun hTerm => hUnknown (Or.inl hTerm)
          · simp [Tenure.next, hGranted] at hJob
          · obtain ⟨owner, ownerRequest, old, hOld, hHeld, -⟩ :=
              hRecords.owner pk row drawn (hJobs pk ▸ hRow) hOwner
            exact absurd hHeld (hUnused owner ownerRequest old hOld)
    · exact hFrame hNew hLeaseId

/-- Taking a lease is a grant: its term begins now. -/
theorem records_of_took (hRecords : Records pool ledger)
    (hDistinct : TokensDistinct Tenure.leaseId (tenureOf pool)) {pk : PrimaryKeyType}
    {leaseId : LeaseIdType} {row : ScheduledJobDataModel}
    (hLeaseId : tenure.leaseId = some leaseId) (hGranted : act.granted reply = some pk)
    (hGaveUp : act.gaveUp reply = false) (hDrawn : act.drawn reply = none)
    (hWritten : act.ownerWritten = some leaseId) (hOwner : row.leaseOwner = some leaseId)
    (hExpires : row.leaseExpires = some request.expires) (hHeld : row.updateState ≠ none)
    (hJobs : ∀ other, pool'.shared.job other =
      if other = pk then some row else pool.shared.job other) :
    Records pool'
      { ledger with
        holder := Function.update ledger.holder pk (some leaseId)
        term := Function.update ledger.term leaseId
          (some (pk, pool.shared.clock + request.leaseTime)) } where
  clock := hRecords.clock.trans hPerformed.clock.symm
  holder other := by
    by_cases hOther : other = pk
    · subst hOther
      simp [hJobs, hOwner]
    · simp [hJobs, hOther, hRecords.holder]
  free other stored hStored hFree := by
    rw [hJobs] at hStored
    split at hStored
    · cases hStored
      exact absurd hFree hHeld
    · exact hRecords.free other stored hStored hFree
  drawn known hKnown := by
    by_cases hSame : known = leaseId
    · exact hPerformed.drawn_kept ⟨actor, request, tenure, hPerformed.before, hSame ▸ hLeaseId⟩
    · simp only [Function.update_of_ne hSame] at hKnown
      exact hPerformed.drawn_kept (hRecords.drawn known hKnown)
  owner other stored known hStored hKnown := by
    rw [hJobs] at hStored
    split at hStored
    · rename_i hOther
      cases hStored
      obtain rfl : leaseId = known := Option.some.inj (hOwner.symm.trans hKnown)
      exact ⟨actor, request, _, by rw [hPerformed.tenures, if_pos rfl],
        by simp [Tenure.next, hDrawn, hLeaseId], by simp [Tenure.next, hGranted, hOther]⟩
    · exact hPerformed.owner_kept (hRecords.owner other stored known hStored hKnown)
  -- only the lease that was granted has changed its account
  accounted pid other new known hNew hKnown := by
    rcases hPerformed.tenure_cases hDistinct hLeaseId hDrawn hNew hKnown with
      ⟨rfl, rfl, rfl, rfl⟩ | ⟨hOther, hNew⟩
    · have hAccount := hRecords.accounted pid _ tenure known hPerformed.before hLeaseId
      obtain ⟨scope, hLog⟩ := hPerformed.log
      refine ⟨?_, fun hJob => ?_, fun job hJob => ?_, fun job stored hOpen hStored hOwned => ?_⟩
      · simpa [Tenure.next, hGaveUp] using hAccount.stopped
      · simp [Tenure.next, hGranted] at hJob
      · obtain rfl : pk = job := by simpa [Tenure.next, hGranted] using hJob
        refine ⟨_, by rw [hLog]; exact List.mem_cons_self, rfl, hGranted, hWritten, ?_⟩
        simp
      · rw [hJobs] at hStored
        split at hStored
        · cases hStored
          exact hExpires
        · have hWasOpen : tenure.stopped = false := by simpa [Tenure.next, hGaveUp] using hOpen
          exact hAccount.expiry job stored hWasOpen hStored hOwned
    · refine (hRecords.accounted pid other new known hNew hKnown).frame Iff.rfl
        (Function.update_of_ne hOther _ _) (fun _ => hPerformed.mem_log)
        fun job stored hStored hOwned => ?_
      rw [hJobs] at hStored
      split at hStored
      · cases hStored
        exact absurd (Option.some.inj (hOwned.symm.trans hOwner)) hOther
      · exact hStored

/-- Giving a lease up, or marking the job as needing repair, ends the lease. -/
theorem records_of_ended (hRecords : Records pool ledger)
    (hDistinct : TokensDistinct Tenure.leaseId (tenureOf pool)) {pk : PrimaryKeyType}
    {leaseId : LeaseIdType} {old row : ScheduledJobDataModel}
    (holder : PrimaryKeyType → Option LeaseIdType)
    (hLeaseId : tenure.leaseId = some leaseId) (hGranted : act.granted reply = none)
    (hGaveUp : act.gaveUp reply = true) (hDrawn : act.drawn reply = none)
    (hOld : pool.shared.job pk = some old) (hOwner : old.leaseOwner = some leaseId)
    (hRow : (row.leaseOwner = none ∧ row.updateState = none) ∨
      (row.leaseOwner = old.leaseOwner ∧ row.updateState = old.updateState))
    (hJobs : ∀ other, pool'.shared.job other =
      if other = pk then some row else pool.shared.job other)
    (hHolder : ∀ pk, holder pk = (pool'.shared.job pk).bind (·.leaseOwner)) :
    Records pool'
      { ledger with
        holder := holder
        stopped := fun other => other = leaseId ∨ ledger.stopped other } where
  clock := hRecords.clock.trans hPerformed.clock.symm
  holder := hHolder
  free other stored hStored hFree := by
    rw [hJobs] at hStored
    split at hStored
    · cases hStored
      rcases hRow with ⟨hNone, -⟩ | ⟨hSame, hState⟩
      · exact hNone
      · exact hSame.trans (hRecords.free pk old hOld (hState.symm.trans hFree))
    · exact hRecords.free other stored hStored hFree
  -- the lease that has ended was drawn by the call that ended it
  drawn known hKnown := by
    have hStill : known = leaseId ∨ ledger.term known ≠ none ∨ ledger.stopped known := by
      rcases hKnown with hTerm | hSame | hOver
      · exact Or.inr (Or.inl hTerm)
      · exact Or.inl hSame
      · exact Or.inr (Or.inr hOver)
    rcases hStill with rfl | hStill
    · exact hPerformed.drawn_kept ⟨actor, request, tenure, hPerformed.before, hLeaseId⟩
    · exact hPerformed.drawn_kept (hRecords.drawn known hStill)
  -- an owner that is left was there before
  owner other stored known hStored hKnown := by
    have hBefore : ∃ before, pool.shared.job other = some before ∧
        before.leaseOwner = some known := by
      rw [hJobs] at hStored
      split at hStored
      · rename_i hOther
        cases hStored
        rcases hRow with ⟨hNone, -⟩ | ⟨hSame, -⟩
        · rw [hNone] at hKnown
          cases hKnown
        · exact ⟨old, hOther ▸ hOld, hSame.symm.trans hKnown⟩
      · exact ⟨stored, hStored, hKnown⟩
    obtain ⟨before, hWas, hWasOwner⟩ := hBefore
    exact hPerformed.owner_kept (hRecords.owner other before known hWas hWasOwner)
  accounted pid other new known hNew hKnown := by
    rcases hPerformed.tenure_cases hDistinct hLeaseId hDrawn hNew hKnown with
      ⟨rfl, rfl, rfl, rfl⟩ | ⟨hOther, hNew⟩
    · have hAccount := hRecords.accounted pid _ tenure known hPerformed.before hLeaseId
      refine ⟨?_, fun hJob => ?_, fun job hJob => ?_, fun job stored hOpen => ?_⟩
      · simp [Tenure.next, hGaveUp]
      · exact hAccount.ungranted (by simpa [Tenure.next, hGranted] using hJob)
      · obtain ⟨entry, hEntry, hRest⟩ :=
          hAccount.granted job (by simpa [Tenure.next, hGranted] using hJob)
        exact ⟨entry, hPerformed.mem_log hEntry, hRest⟩
      · simp [Tenure.next, hGaveUp] at hOpen
    · refine (hRecords.accounted pid other new known hNew hKnown).frame
        (by simp [hOther]) rfl (fun _ => hPerformed.mem_log)
        fun job stored hStored hOwned => ?_
      rw [hJobs] at hStored
      split at hStored
      · cases hStored
        rcases hRow with ⟨hNone, -⟩ | ⟨hSame, -⟩
        · rw [hNone] at hOwned
          cases hOwned
        · rw [hSame, hOwner] at hOwned
          exact absurd (Option.some.inj hOwned).symm hOther
      · exact hStored

end Performed

end Performed

/-! ## Runs keep a ledger by fair moves -/

theorem tenancy_of_run {A : RunCondition signature Database (LeaseRequest α)
      (Except JsError (Option α))} {first : RunnerPool α}
    (hRun : Run (leaseRunners α reading) A first pool) (hIdle : first.Idle) :
    pool.Honors tenancy (fun _ => {}) fun _ _ _ => True := by
  refine hRun.honors (fun request => ?_) hIdle
  exact Prog.Sat.mono request.honors_tenancy fun _ _ _ => trivial

section Runs

variable {A : RunCondition signature Database (LeaseRequest α)
    (Except JsError (Option α))} {first : RunnerPool α}

theorem moves_of_runner (hRun : Run (leaseRunners α reading) A first pool)
    (hIdle : first.Idle) (hStep : Step (leaseRunners α reading) pool event pool') :
    pool.Moves (leaseRunners α reading) tenancy (fun _ => {}) event pool' :=
  hStep.moves (hRun.logOwned hIdle) (tenancy_of_run hRun hIdle)

theorem tenureOf_idle (hIdle : first.Idle) (pid : Nat) : tenureOf first pid = none :=
  Pool.stateOf_idle hIdle pid

/-- Lease ids belong to one call each. -/
theorem tenures_distinct (hRun : Run (leaseRunners α reading) A first pool)
    (hIdle : first.Idle)
    (hFresh : ∀ pool event pool', A pool event pool' → freshLeaseIds pool event pool') :
    TokensDistinct Tenure.leaseId (tenureOf pool) := by
  refine hRun.invariant (I := fun pool => TokensDistinct Tenure.leaseId (tenureOf pool)) ?_
    fun pool event pool' hBefore hDistinct hStep hA => ?_
  · intro pid pid' request request' tenure tenure' leaseId hTenure
    rw [tenureOf_idle hIdle] at hTenure
    cases hTenure
  · exact (moves_of_runner hBefore hIdle hStep).tokensDistinct (fun _ => rfl)
      (fun _ tenure op reply => tenure.leaseId_next op.act reply) (hFresh _ _ _ hA) hDistinct

/-- Time only moves on. -/
theorem clock_le_of_moves {P : LeaseRequest α → Protocol signature Tenure}
    (hMoves : pool.Moves (leaseRunners α reading) P (fun _ => {}) event pool') :
    pool.shared.clock ≤ pool'.shared.clock := by
  cases hMoves with
  | quiet _ _ hShared _ _ _ =>
      rcases hShared with hSame | ⟨later, hLater, hSame⟩
      · exact Int.le_of_eq (congrArg Database.clock hSame).symm
      · rw [hSame]
        exact hLater
  | performed _ _ _ _ _ _ _ _ hExec _ _ => exact Int.le_of_eq (Exec.clock hExec).symm

/-- The time a call was given has come. -/
theorem now_le_clock (hRun : Run (leaseRunners α reading) A first pool)
    (hIdle : first.Idle)
    (hClocks : ∀ pool event pool', A pool event pool' → clocksAgree pool event pool') :
    ∀ pid request tenure, tenureOf pool pid = some (request, tenure) →
      request.now ≤ pool.shared.clock := by
  refine hRun.invariant (I := fun pool => ∀ pid request tenure,
    tenureOf pool pid = some (request, tenure) → request.now ≤ pool.shared.clock) ?_
    fun pool event pool' hBefore hNow hStep hA => ?_
  · intro pid request tenure hTenure
    rw [tenureOf_idle hIdle] at hTenure
    cases hTenure
  · have hMoves := moves_of_runner hBefore hIdle hStep
    have hLater := clock_le_of_moves hMoves
    refine hMoves.state_invariant (I := fun request _ => request.now ≤ pool'.shared.clock)
      (fun request hSpawned => ?_) (fun _ _ _ _ hI _ _ => hI)
      fun pid request tenure hTenure => ?_
    · exact Int.le_trans (hClocks _ _ _ hA request hSpawned) hLater
    · exact Int.le_trans (hNow pid request tenure hTenure) hLater

/-- The jobs a call was granted are the one it holds. -/
theorem job_of_granted (hRun : Run (leaseRunners α reading) A first pool)
    (hIdle : first.Idle) : ∀ entry : SchedulerEntry, entry ∈ pool.log → ∀ pk,
      entry.op.act.granted entry.reply = some pk →
      ∃ request tenure, tenureOf pool entry.pid = some (request, tenure) ∧
        tenure.job = some pk := by
  refine hRun.invariant (I := fun pool => ∀ entry : SchedulerEntry, entry ∈ pool.log → ∀ pk,
      entry.op.act.granted entry.reply = some pk →
      ∃ request tenure, tenureOf pool entry.pid = some (request, tenure) ∧
        tenure.job = some pk) ?_ fun pool event pool' hBefore hJobs hStep _ => ?_
  · intro entry hEntry
    rw [hIdle.2] at hEntry
    cases hEntry
  · intro entry hEntry pk hGranted
    cases moves_of_runner hBefore hIdle hStep with
    | quiet _ _ _ hLog hOld _ =>
        obtain ⟨request, tenure, hTenure, hJob⟩ := hJobs entry (hLog ▸ hEntry) pk hGranted
        exact ⟨request, tenure, hOld _ _ hTenure, hJob⟩
    -- the grant is this step, or one before, and a call never changes its job
    | performed actor request tenure op reply _ hActor hMay hExec hLog hTenures =>
        have hPerformed : Performed pool pool' actor request tenure op.act reply :=
          ⟨hActor, hMay.keepsId reply, hMay.keepsJob hExec, hExec.clock, ⟨op.scope, hLog⟩,
            hTenures⟩
        rw [hLog] at hEntry
        rcases List.mem_cons.mp hEntry with rfl | hOldEntry
        · refine ⟨request, tenure.next op.act reply, (hTenures actor).trans (if_pos rfl), ?_⟩
          have hNow : op.act.granted reply = some pk := hGranted
          simp [Tenure.next, hNow]
        · obtain ⟨other, old, hOld, hJob⟩ := hJobs entry hOldEntry pk hGranted
          obtain ⟨new, hNew, -, hKept⟩ := hPerformed.persists hOld
          exact ⟨other, new, hNew, hKept pk hJob⟩

end Runs

/-- A lease that was written in time expires no earlier than its term ends. -/
theorem LeaseRequest.Punctual.le_expires {request : LeaseRequest α} {applied : Date}
    (hPunctual : request.Punctual applied) :
    applied + request.leaseTime ≤ request.expires := by
  obtain ⟨hApplied, hOffset⟩ := hPunctual
  simp only [LeaseRequest.expires, updateDate_eq, TimeZone.localTime] at hOffset ⊢
  simp only [LeaseRequest.leaseTime] at hOffset ⊢
  unfold Date at hApplied ⊢
  omega

/-- **A lease that may be passed on has no running term.** -/
theorem not_running_of_mayPassOn (hRecords : Records pool ledger) {pk : PrimaryKeyType}
    {old : ScheduledJobDataModel} {owner : LeaseIdType} {now : Date}
    (hOld : pool.shared.job pk = some old) (hOwner : old.leaseOwner = some owner)
    (hExpired : ∃ expires, old.leaseExpires = some expires ∧
      strictlyBefore now expires = true)
    (hNow : now ≤ pool.shared.clock)
    (hPassOn : ∀ grant ∈ pool.log, grant.op.act.granted grant.reply = some pk →
      grant.op.act.ownerWritten = old.leaseOwner → MayPassOn pool grant) :
    ¬ ledger.Running owner pk := by
  rintro ⟨ending, hTerm, hOver, hClock⟩
  obtain ⟨pid, request, tenure, hTenure, hLeaseId, hJob⟩ :=
    hRecords.owner pk old owner hOld hOwner
  have hAccount := hRecords.accounted pid request tenure owner hTenure hLeaseId
  obtain ⟨entry, hEntry, hPid, hGranted, hWritten, hRecorded⟩ := hAccount.granted pk hJob
  obtain ⟨-, rfl⟩ := Prod.mk.inj (Option.some.inj (hTerm.symm.trans hRecorded))
  rw [hRecords.clock] at hClock
  have hOpen : tenure.stopped = false := by
    cases hFlag : tenure.stopped with
    | false => rfl
    | true => exact absurd (hAccount.stopped.mpr hFlag) hOver
  -- the term was drawn up in time, or is over by the clock, or was given up
  rcases hPassOn entry hEntry hGranted (hWritten.trans hOwner.symm) request
      (hPid ▸ requestOf_of_tenure hTenure) with hPunctual | hEnded | ⟨later, hLater, hHis, hUp⟩
  · obtain ⟨expires, hExpires, hBefore⟩ := hExpired
    rw [hAccount.expiry pk old hOpen hOld hOwner] at hExpires
    obtain rfl := Option.some.inj hExpires
    have hPast : request.expires < now := by simpa [strictlyBefore] using hBefore
    exact absurd (Int.le_trans hClock hPunctual.le_expires)
      (Int.not_le.mpr (Int.lt_of_lt_of_le hPast hNow))
  · exact absurd hClock (Int.not_le.mpr hEnded)
  · rw [over_of_gaveUp hTenure hLater (hHis.trans hPid) hUp] at hOpen
    cases hOpen

/-- **A step is fair.**  The ledger of a state becomes the ledger of the next one by
fair moves. -/
theorem Records.step (hRecords : Records pool ledger)
    (hMoves : pool.Moves (leaseRunners α strictlyBefore) tenancy (fun _ => {}) event pool')
    (hDistinct : TokensDistinct Tenure.leaseId (tenureOf pool))
    (hNow : ∀ pid request tenure, tenureOf pool pid = some (request, tenure) →
      request.now ≤ pool.shared.clock)
    (hInTurn : leasesInTurn pool event pool') :
    ∃ ledger', Relation.ReflTransGen Ledger.Step ledger ledger' ∧ Records pool' ledger' := by
  have hLater := clock_le_of_moves hMoves
  cases hMoves with
  -- only the clock has moved
  | quiet _ _ hShared hLog hOld hNew =>
      have hJobs := (Database.tables_of_quiet hShared).1
      have hKept : ∀ {pid : Nat} {request : LeaseRequest α} {tenure : Tenure}
          {leaseId : LeaseIdType}, tenureOf pool' pid = some (request, tenure) →
          tenure.leaseId = some leaseId → tenureOf pool pid = some (request, tenure) := by
        intro pid request tenure leaseId hTenure hLeaseId
        rcases hNew pid request tenure hTenure with hBefore | ⟨-, rfl⟩
        · exact hBefore
        · cases hLeaseId
      refine ⟨_, .single (.wait ledger pool'.shared.clock (hRecords.clock ▸ hLater)), ?_⟩
      exact
        { clock := rfl
          holder := fun pk => by rw [hJobs]; exact hRecords.holder pk
          free := fun pk row hRow => hRecords.free pk row (hJobs pk ▸ hRow)
          drawn := fun leaseId hKnown => by
            obtain ⟨pid, request, tenure, hTenure, hLeaseId⟩ := hRecords.drawn leaseId hKnown
            exact ⟨pid, request, tenure, hOld pid _ hTenure, hLeaseId⟩
          owner := fun pk row leaseId hRow hOwner => by
            obtain ⟨pid, request, tenure, hTenure, hHeld⟩ :=
              hRecords.owner pk row leaseId (hJobs pk ▸ hRow) hOwner
            exact ⟨pid, request, tenure, hOld pid _ hTenure, hHeld⟩
          accounted := fun pid request tenure leaseId hTenure hLeaseId =>
            (hRecords.accounted pid request tenure leaseId (hKept hTenure hLeaseId)
              hLeaseId).frame Iff.rfl rfl (fun entry hEntry => hLog ▸ hEntry)
              fun pk row hRow _ => hJobs pk ▸ hRow }
  | performed actor request tenure op reply _ hActor hMay hExec hLog hTenures =>
      obtain ⟨scope, act⟩ := op
      have hEffect := hMay.effect hExec
      have hPerformed : Performed pool pool' actor request tenure act reply :=
        ⟨hActor, hMay.keepsId reply, hMay.keepsJob hExec, hExec.clock, ⟨scope, hLog⟩, hTenures⟩
      cases hEffect with
      | kept hGranted hGaveUp hJobs =>
          refine ⟨ledger, .refl, hPerformed.records_of_kept hRecords
            (fun leaseId hDrawn pid other old hOther hHeld => ?_) hGranted hGaveUp hJobs⟩
          obtain ⟨entry, hEntry, -, hDrew⟩ := Pool.drawn_of_token (fun _ => rfl)
            (fun _ held op answer => held.leaseId_next op.act answer) hOther hHeld
          exact hInTurn.2.1 _ rfl leaseId hDrawn entry hEntry hDrew
      | took pk leaseId row hLeaseId hJob hGranted hGaveUp hDrawn hWritten hOwner hExpires
          hHeld hFree hJobs =>
          have hAccount := hRecords.accounted actor request tenure leaseId hActor hLeaseId
          refine ⟨_, .single (.grant ledger leaseId pk
            (pool.shared.clock + request.leaseTime) (hAccount.ungranted hJob) ?_),
            hPerformed.records_of_took hRecords hDistinct hLeaseId hGranted
              hGaveUp hDrawn hWritten hOwner hExpires hHeld hJobs⟩
          -- the lease before, if there is one, has run out
          intro owner hHolder
          rw [hRecords.holder] at hHolder
          obtain ⟨old, hOld, hOldOwner⟩ := Option.bind_eq_some_iff.mp hHolder
          rcases hFree old hOld with hNone | hExpired
          · rw [hRecords.free pk old hOld hNone] at hOldOwner
            cases hOldOwner
          · have hTaken : old.updateState ≠ none := fun hNone => by
              rw [hRecords.free pk old hOld hNone] at hOldOwner
              cases hOldOwner
            exact not_running_of_mayPassOn hRecords hOld hOldOwner hExpired
              (hNow actor request tenure hActor)
              (hInTurn.2.2 _ rfl pk hGranted old hOld hTaken)
      | ended pk leaseId old row hLeaseId hGranted hGaveUp hDrawn hOld hOwner hRow hJobs =>
          have hRecordsAfter := fun holder => hPerformed.records_of_ended
            hRecords hDistinct holder hLeaseId hGranted hGaveUp hDrawn hOld hOwner
            hRow hJobs
          have hHolder : ledger.holder pk = some leaseId := by
            rw [hRecords.holder, hOld]
            exact hOwner
          -- released, or marked for repair: then the ledger keeps its holder
          rcases id hRow with ⟨hNone, -⟩ | ⟨hSame, -⟩
          · refine ⟨_, .single (.release ledger leaseId pk hHolder),
              hRecordsAfter _ fun other => ?_⟩
            by_cases hOther : other = pk
            · subst hOther
              simp [hJobs, hNone]
            · simp [hJobs, hOther, hRecords.holder]
          · refine ⟨_, .single (.giveUp ledger leaseId), hRecordsAfter _ fun other => ?_⟩
            by_cases hOther : other = pk
            · subst hOther
              simp [hJobs, hRecords.holder, hOld, hSame]
            · simp [hJobs, hOther, hRecords.holder]

/-- **The schedule table keeps a ledger of leases.**  In a run in which clocks agree,
lease ids are unique and takeovers wait their turn, every state is accounted for by
a ledger that fair moves lead to. -/
theorem ledger_of_run
    (hRun : Run (leaseRunners α strictlyBefore) leasesInTurn (.start (.empty clock)) pool) :
    ∃ ledger, Ledger.Reachable clock ledger ∧ Records pool ledger := by
  have hIdle : (Pool.start (.empty clock) : RunnerPool α).Idle := Pool.start_idle _
  refine hRun.invariant (I := fun pool => ∃ ledger, Ledger.Reachable clock ledger ∧
    Records pool ledger) ?_ fun pool event pool' hBefore hLedger hStep hInTurn => ?_
  · refine ⟨.empty clock, .refl, ?_⟩
    exact
      { clock := rfl
        holder := fun _ => rfl
        free := fun _ _ hRow => by cases hRow
        drawn := fun _ hKnown => by
          rcases hKnown with hTerm | hOver
          · exact absurd rfl hTerm
          · exact hOver.elim
        owner := fun _ _ _ hRow => by cases hRow
        accounted := fun pid _ _ _ hTenure => by
          rw [tenureOf_idle hIdle] at hTenure
          cases hTenure }
  · obtain ⟨ledger, hReachable, hRecords⟩ := hLedger
    obtain ⟨ledger', hSteps, hAfter⟩ := hRecords.step (moves_of_runner hBefore hIdle hStep)
      (tenures_distinct hBefore hIdle fun _ _ _ h => h.2.1)
      (now_le_clock hBefore hIdle fun _ _ _ h => h.1) hInTurn
    exact ⟨ledger', hReachable.trans hSteps, hAfter⟩

end TernScheduler
