import Mathlib

/-!
# Waiting for the prefill workers

`launch/gpu_prefill.sh` submits one job for each worker, and then looks once a second whether each
of them has registered or its `srun` has exited.  A worker that has registered is not looked at
again.  This file says when the success that the script reports means that every worker is up.
-/

namespace RduHdi

namespace GpuPrefill

/-- What the script can see of its workers, tick by tick: the registration line in the log of a
worker, which stays there, and whether its `srun` is alive, which ends once. -/
structure Observations (workers : ℕ) where
  /-- Whether the registration line is in the log. -/
  line : ℕ → Fin workers → Bool
  /-- Whether the `srun` is alive. -/
  alive : ℕ → Fin workers → Bool
  /-- A line stays in the log. -/
  line_stays : ∀ tick worker, line tick worker → line (tick + 1) worker
  /-- A dead `srun` stays dead. -/
  dead_stays : ∀ tick worker, alive (tick + 1) worker → alive tick worker
  /-- Whether it is alive when the jobs are torn down. -/
  aliveAtTeardown : Fin workers → Bool

/-- A command about one worker. -/
inductive TeardownCall (workers : ℕ) where
  | scancel (worker : Fin workers)
  | kill (worker : Fin workers)
  deriving DecidableEq

/-- The variables of the wait loop, with the tick it is in. -/
structure Wait (workers : ℕ) where
  /-- The workers whose line was seen. -/
  registered : Fin workers → Bool
  /-- Whether a worker was lost. -/
  failed : Bool
  /-- Whether all lines were seen. -/
  allDone : Bool
  /-- The tick. -/
  tick : ℕ

/-- How the script ends. -/
structure LaunchExit (workers : ℕ) where
  /-- The exit code. -/
  code : ℕ
  /-- What was called on the jobs. -/
  calls : List (TeardownCall workers)
  /-- The tick in which the wait loop was left. -/
  tick : ℕ

variable {workers : ℕ} (observations : Observations workers)

/-- `teardown_all`: every job is cancelled, and what is left of its `srun` is killed. -/
def teardownAll : List (TeardownCall workers) :=
  (List.finRange workers).map .scancel ++
    ((List.finRange workers).filter observations.aliveAtTeardown).map .kill

/-- One turn of the inner loop. -/
def checkWorker (tick : ℕ) (wait : Wait workers) (worker : Fin workers) : Wait workers :=
  if wait.registered worker then
    wait
  else if observations.line tick worker then
    { wait with registered := Function.update wait.registered worker true }
  else
    { wait with failed := wait.failed || !observations.alive tick worker, allDone := false }

/-- The inner loop of one tick. -/
def checkAll (wait : Wait workers) (tick : ℕ) : Wait workers :=
  (List.finRange workers).foldl (checkWorker observations tick)
    { wait with allDone := true, tick }

/-- The wait loop. -/
def waitFor (wait : Wait workers) : List ℕ → Wait workers
  | [] => wait
  | tick :: ticks =>
      let wait := checkAll observations wait tick
      if wait.failed then wait
      else if wait.allDone then wait
      else waitFor wait ticks

/-- The variables before the first tick. -/
def Wait.init : Wait workers where
  registered _ := false
  failed := false
  allDone := false
  tick := 0

/-- The script after the wait loop. -/
def finish (wait : Wait workers) : LaunchExit workers :=
  if wait.failed then
    { code := 1, calls := teardownAll observations, tick := wait.tick }
  else
    match (List.finRange workers).find? fun worker => !wait.registered worker with
    | some _ => { code := 1, calls := teardownAll observations, tick := wait.tick }
    | none => { code := 0, calls := [], tick := wait.tick }

/-- The script after the submission, for a timeout in seconds. -/
def awaitRegistration (timeout : ℕ) : LaunchExit workers :=
  finish observations (waitFor observations .init (List.range' 1 timeout))

/-! ## One tick -/

variable {observations}

/-- A worker is registered, or its line can be seen. -/
def Settled (observations : Observations workers) (tick : ℕ) (wait : Wait workers)
    (worker : Fin workers) : Prop :=
  wait.registered worker ∨ observations.line tick worker

/-- What the inner loop has done after some of the workers. -/
structure Checked (observations : Observations workers) (tick : ℕ) (before : Wait workers)
    (turns : List (Fin workers)) (after : Wait workers) : Prop where
  /-- The workers in turn are registered when they are settled. -/
  registered : ∀ worker ∈ turns, after.registered worker ↔ Settled observations tick before worker
  /-- Nobody is unregistered. -/
  kept : ∀ worker, before.registered worker → after.registered worker
  /-- Who is settled stays so. -/
  settled : ∀ worker, Settled observations tick after worker ↔
    Settled observations tick before worker
  /-- A worker in turn that is lost is a failure. -/
  failed : after.failed ↔ before.failed ∨ ∃ worker ∈ turns,
    ¬ Settled observations tick before worker ∧ ¬ observations.alive tick worker
  /-- A worker in turn that is not settled is waited for. -/
  allDone : after.allDone ↔ before.allDone ∧
    ∀ worker ∈ turns, Settled observations tick before worker
  /-- The tick stays. -/
  tick : after.tick = before.tick

theorem checked_checkWorker (observations : Observations workers) (tick : ℕ)
    (wait : Wait workers) (turn : Fin workers) :
    Checked observations tick wait [turn] (checkWorker observations tick wait turn) := by
  rw [checkWorker]
  by_cases known : wait.registered turn
  · rw [if_pos known]
    constructor <;> simp [Settled, known]
  · by_cases seen : observations.line tick turn
    · rw [if_neg known, if_pos seen]
      have settled (worker : Fin workers) :
          Settled observations tick
              { wait with registered := Function.update wait.registered turn true } worker ↔
            Settled observations tick wait worker := by
        by_cases same : worker = turn
        · subst same
          simp [Settled, seen]
        · simp [Settled, Function.update_of_ne same]
      refine ⟨?_, fun worker before => ?_, settled, ?_, ?_, rfl⟩
      · simp [Settled, seen]
      · by_cases same : worker = turn
        · subst same
          simp
        · simpa [Function.update_of_ne same] using before
      · simp [Settled, seen]
      · simp [Settled, seen]
    · rw [if_neg known, if_neg seen]
      constructor <;> simp [Settled, known, seen]

theorem checked_foldl (tick : ℕ) (wait : Wait workers) (turns : List (Fin workers)) :
    Checked observations tick wait turns
      (turns.foldl (checkWorker observations tick) wait) := by
  induction turns generalizing wait with
  | nil => constructor <;> simp
  | cons turn turns ih =>
      have one := checked_checkWorker observations tick wait turn
      have rest := ih (checkWorker observations tick wait turn)
      have own := one.registered turn (List.mem_singleton_self turn)
      rw [List.foldl_cons]
      refine ⟨fun worker member => ?_,
        fun worker before => rest.kept worker (one.kept worker before),
        fun worker => (rest.settled worker).trans (one.settled worker), ?_, ?_,
        rest.tick.trans one.tick⟩
      · constructor
        · intro known
          exact (one.settled worker).mp ((rest.settled worker).mp (Or.inl known))
        · intro settled
          rcases List.mem_cons.mp member with rfl | later
          · exact rest.kept worker (own.mpr settled)
          · exact (rest.registered worker later).mpr ((one.settled worker).mpr settled)
      · rw [rest.failed, one.failed]
        simp [one.settled, or_assoc]
      · rw [rest.allDone, one.allDone]
        simp [one.settled, and_assoc]

theorem checked_checkAll (observations : Observations workers) (wait : Wait workers) (tick : ℕ) :
    Checked observations tick { wait with allDone := true, tick } (List.finRange workers)
      (checkAll observations wait tick) :=
  checked_foldl tick _ _

/-! ## Runs -/

/-- The registration line of every worker can be seen. -/
def AllSeen (observations : Observations workers) (tick : ℕ) : Prop :=
  ∀ worker, observations.line tick worker

/-- No worker has exited without a registration line. -/
def NoneLost (observations : Observations workers) (tick : ℕ) : Prop :=
  ∀ worker, observations.line tick worker ∨ observations.alive tick worker

theorem line_mono {early late : ℕ} (before : early ≤ late) {worker : Fin workers}
    (seen : observations.line early worker) : observations.line late worker := by
  induction late, before using Nat.le_induction with
  | base => exact seen
  | succ late _ ih => exact observations.line_stays late worker ih

theorem alive_anti {early late : ℕ} (before : early ≤ late) {worker : Fin workers}
    (alive : observations.alive late worker) : observations.alive early worker := by
  induction late, before using Nat.le_induction with
  | base => exact alive
  | succ late _ ih => exact ih (observations.dead_stays late worker alive)

/-- The wait loop stands before a tick: a worker is registered when its line was seen before. -/
structure Before (observations : Observations workers) (wait : Wait workers) (tick : ℕ) :
    Prop where
  /-- Registered is whose line was there before the tick. -/
  registered : ∀ worker, wait.registered worker ↔
    ∃ early, 1 ≤ early ∧ early < tick ∧ observations.line early worker
  /-- No worker was lost before it. -/
  failed : wait.failed = false

theorem Before.settled {wait : Wait workers} {tick : ℕ} (before : Before observations wait tick)
    (worker : Fin workers) :
    Settled observations tick wait worker ↔ observations.line tick worker := by
  rw [Settled, before.registered worker]
  constructor
  · rintro (⟨early, _, earlier, seen⟩ | seen)
    · exact line_mono earlier.le seen
    · exact seen
  · exact Or.inr

/-- How the wait loop ends, from a tick on. -/
inductive WaitEnd (observations : Observations workers) (first count : ℕ) (wait : Wait workers) :
    Prop where
  /-- Every line was seen in the last tick, and not before. -/
  | registered (tick : ℕ) (from_first : first ≤ tick) (in_time : tick < first + count)
      (last : wait.tick = tick) (ok : wait.failed = false) (all : ∀ worker, wait.registered worker)
      (seen : AllSeen observations tick)
      (earlier : ∀ early, first ≤ early → early < tick →
        ¬ AllSeen observations early ∧ NoneLost observations early)
  /-- A worker was lost in the last tick. -/
  | lost (tick : ℕ) (from_first : first ≤ tick) (in_time : tick < first + count)
      (failed : wait.failed) (here : ¬ NoneLost observations tick)
      (earlier : ∀ early, first ≤ early → early < tick → ¬ AllSeen observations early)
  /-- The time ran out. -/
  | timeout (before : Before observations wait (first + count))
      (earlier : ∀ early, first ≤ early → early < first + count →
        ¬ AllSeen observations early ∧ NoneLost observations early)

theorem waitEnd_waitFor {wait : Wait workers} {first : ℕ} (positive : 1 ≤ first)
    (before : Before observations wait first) (count : ℕ) :
    WaitEnd observations first count
      (waitFor observations wait (List.range' first count)) := by
  induction count generalizing wait first with
  | zero => exact .timeout before fun early late inside => by omega
  | succ count ih =>
      have checked := checked_checkAll observations wait first
      have settled (worker : Fin workers) : Settled observations first
          { wait with allDone := true, tick := first } worker ↔ observations.line first worker :=
        before.settled worker
      have failed_iff : (checkAll observations wait first).failed ↔
          ¬ NoneLost observations first := by
        rw [checked.failed]
        simp only [settled]
        simp [before.failed, NoneLost]
      have done_iff : (checkAll observations wait first).allDone ↔
          AllSeen observations first := by
        rw [checked.allDone]
        simp [settled, AllSeen]
      have known (worker : Fin workers) : (checkAll observations wait first).registered worker ↔
          observations.line first worker :=
        (checked.registered worker (List.mem_finRange worker)).trans (settled worker)
      have nothing_earlier {claim : ℕ → Prop} : ∀ early, first ≤ early → early < first →
          claim early := fun early late inside => by omega
      rw [List.range'_succ, waitFor]
      by_cases lost : NoneLost observations first
      · have ok : (checkAll observations wait first).failed = false :=
          Bool.eq_false_iff.mpr fun failed => failed_iff.mp failed lost
        by_cases seen : AllSeen observations first
        · rw [if_neg (Bool.eq_false_iff.mp ok), if_pos (done_iff.mpr seen)]
          exact .registered first le_rfl (by omega) checked.tick ok
            (fun worker => (known worker).mpr (seen worker)) seen nothing_earlier
        · rw [if_neg (Bool.eq_false_iff.mp ok), if_neg (fun done => seen (done_iff.mp done))]
          have next : Before observations (checkAll observations wait first) (first + 1) := by
            refine ⟨fun worker => ?_, ok⟩
            rw [known worker]
            constructor
            · exact fun line => ⟨first, positive, Nat.lt_succ_self first, line⟩
            · rintro ⟨early, _, earlier, line⟩
              exact line_mono (Nat.lt_succ_iff.mp earlier) line
          have here (early : ℕ) (late : first ≤ early) (notLater : ¬ first + 1 ≤ early) :
              early = first := by omega
          cases ih (Nat.le_succ_of_le positive) next with
          | registered tick from_first in_time last ok all lastSeen earlier =>
              refine .registered tick (by omega) (by omega) last ok all lastSeen ?_
              intro early late inside
              by_cases after : first + 1 ≤ early
              · exact earlier early after inside
              · rw [here early late after]
                exact ⟨seen, lost⟩
          | lost tick from_first in_time failed lostHere earlier =>
              refine .lost tick (by omega) (by omega) failed lostHere ?_
              intro early late inside
              by_cases after : first + 1 ≤ early
              · exact earlier early after inside
              · rw [here early late after]
                exact seen
          | timeout nextBefore earlier =>
              have bound : first + 1 + count = first + (count + 1) := by omega
              rw [bound] at nextBefore earlier
              refine .timeout nextBefore ?_
              intro early late inside
              by_cases after : first + 1 ≤ early
              · exact earlier early after inside
              · rw [here early late after]
                exact ⟨seen, lost⟩
      · rw [if_pos (failed_iff.mpr lost)]
        exact .lost first le_rfl (by omega) (failed_iff.mpr lost) lost nothing_earlier

/-! ## The success that is reported -/

theorem before_init : Before observations .init 1 where
  registered worker := by
    constructor
    · intro known
      cases known
    · rintro ⟨early, late, earlier, _⟩
      omega
  failed := rfl

theorem waitEnd_init (observations : Observations workers) (timeout : ℕ) :
    WaitEnd observations 1 timeout (waitFor observations .init (List.range' 1 timeout)) :=
  waitEnd_waitFor le_rfl before_init timeout

theorem scancel_mem_teardownAll (observations : Observations workers) (worker : Fin workers) :
    .scancel worker ∈ teardownAll observations :=
  List.mem_append_left _ (List.mem_map_of_mem (List.mem_finRange worker))

/-- The script ends with a success or with a teardown. -/
theorem finish_cases (observations : Observations workers) (wait : Wait workers) :
    (wait.failed = false ∧ (∀ worker, wait.registered worker) ∧
      finish observations wait = { code := 0, calls := [], tick := wait.tick }) ∨
    ((wait.failed ∨ ∃ worker, ¬ wait.registered worker) ∧
      finish observations wait =
        { code := 1, calls := teardownAll observations, tick := wait.tick }) := by
  rw [finish]
  by_cases failed : wait.failed
  · exact Or.inr ⟨Or.inl failed, if_pos failed⟩
  · rw [if_neg failed]
    cases missing : (List.finRange workers).find? fun worker => !wait.registered worker with
    | some worker =>
        have unknown := List.find?_some missing
        exact Or.inr ⟨Or.inr ⟨worker, by simpa using unknown⟩, rfl⟩
    | none =>
        refine Or.inl ⟨Bool.eq_false_iff.mpr failed, fun worker => ?_, rfl⟩
        have known := List.find?_eq_none.mp missing worker (List.mem_finRange worker)
        simpa using known

/-- The script succeeds in the first tick in which every line is seen, when no worker was lost
before it. -/
theorem awaitRegistration_of_seen {timeout tick : ℕ} (positive : 1 ≤ tick)
    (in_time : tick ≤ timeout) (seen : AllSeen observations tick)
    (earlier : ∀ early, 1 ≤ early → early < tick →
      ¬ AllSeen observations early ∧ NoneLost observations early) :
    awaitRegistration observations timeout = { code := 0, calls := [], tick } := by
  rw [awaitRegistration]
  cases waitEnd_init observations timeout with
  | registered last from_first inside last_eq ok all lastSeen before =>
      have same : last = tick := by
        rcases Nat.lt_trichotomy last tick with less | same | more
        · exact absurd lastSeen (earlier last from_first less).1
        · exact same
        · exact absurd seen (before tick positive more).1
      rcases finish_cases observations _ with ⟨_, _, result⟩ | ⟨failed | ⟨worker, missing⟩, _⟩
      · rw [result, last_eq, same]
      · rw [ok] at failed
        cases failed
      · exact absurd (all worker) missing
  | lost last from_first inside failed here before =>
      rcases Nat.lt_trichotomy last tick with less | same | more
      · exact absurd (earlier last from_first less).2 here
      · exact absurd (fun worker => Or.inl (same ▸ seen worker)) here
      · exact absurd seen (before tick positive more)
  | timeout before late => exact absurd seen (late tick positive (by omega)).1

/-- A success was reported in the first tick in which every line was seen, or there was nothing to
wait for. -/
theorem seen_of_success {timeout : ℕ}
    (success : (awaitRegistration observations timeout).code = 0) :
    (∃ tick, (awaitRegistration observations timeout).tick = tick ∧ 1 ≤ tick ∧ tick ≤ timeout ∧
      AllSeen observations tick ∧ ∀ early, 1 ≤ early → early < tick →
        ¬ AllSeen observations early ∧ NoneLost observations early) ∨ IsEmpty (Fin workers) := by
  rw [awaitRegistration] at success ⊢
  rcases finish_cases observations (waitFor observations .init (List.range' 1 timeout)) with
    ⟨ok, all, result⟩ | ⟨_, result⟩
  · rw [result]
    cases waitEnd_init observations timeout with
    | registered tick from_first in_time last _ _ seen earlier =>
        exact Or.inl ⟨tick, last, from_first, by omega, seen, earlier⟩
    | lost tick from_first in_time failed here earlier =>
        rw [ok] at failed
        cases failed
    | timeout before late =>
        refine Or.inr ⟨fun worker => ?_⟩
        -- Every line was seen by the last tick, which contradicts that the time ran out.
        obtain ⟨tick, positive, inside, _⟩ := (before.registered worker).mp (all worker)
        refine (late timeout (by omega) (by omega)).1 fun other => ?_
        obtain ⟨own, _, ownInside, line⟩ := (before.registered other).mp (all other)
        exact line_mono (by omega) line
  · rw [result] at success
    cases success

theorem tornDown_of_failure {timeout : ℕ}
    (failure : (awaitRegistration observations timeout).code ≠ 0) :
    (awaitRegistration observations timeout).calls = teardownAll observations ∧
      ∀ worker, .scancel worker ∈ (awaitRegistration observations timeout).calls := by
  rcases finish_cases observations (waitFor observations .init (List.range' 1 timeout)) with
    ⟨_, _, result⟩ | ⟨_, result⟩
  · rw [awaitRegistration, result] at failure
    exact absurd rfl failure
  · rw [awaitRegistration, result]
    exact ⟨rfl, scancel_mem_teardownAll observations⟩

/-- The script succeeds only when the line of every worker was seen in time and no worker was lost
up to then, and otherwise it tears all of them down. -/
structure Waits (observations : Observations workers) (timeout : ℕ) : Prop where
  /-- A success has every line in time. -/
  registered : (awaitRegistration observations timeout).code = 0 → ∀ worker,
    ∃ tick, 1 ≤ tick ∧ tick ≤ timeout ∧ observations.line tick worker
  /-- Until a success, no worker is lost. -/
  noneLost : (awaitRegistration observations timeout).code = 0 → ∀ tick, 1 ≤ tick →
    tick ≤ (awaitRegistration observations timeout).tick → NoneLost observations tick
  /-- A failure cancels every job. -/
  tornDown : (awaitRegistration observations timeout).code ≠ 0 →
    (awaitRegistration observations timeout).calls = teardownAll observations ∧
      ∀ worker, .scancel worker ∈ (awaitRegistration observations timeout).calls

/-- The script waits until every line was seen, and fails as soon as a worker is lost before. -/
theorem waits_awaitRegistration (observations : Observations workers) (timeout : ℕ) :
    Waits observations timeout := by
  refine ⟨fun success worker => ?_, fun success tick positive inside worker => ?_,
    tornDown_of_failure⟩
  · rcases seen_of_success success with ⟨tick, _, positive, in_time, seen, _⟩ | nobody
    · exact ⟨tick, positive, in_time, seen worker⟩
    · exact nobody.elim worker
  · rcases seen_of_success success with ⟨last, last_eq, _, _, seen, earlier⟩ | nobody
    · rw [last_eq] at inside
      rcases Nat.lt_or_eq_of_le inside with before | here
      · exact (earlier tick positive before).2 worker
      · exact Or.inl (here ▸ seen worker)
    · exact nobody.elim worker

/-! ## Workers that are up -/

/-- The script succeeds only when every worker is up, and otherwise tears all of them down. -/
structure Sound (observations : Observations workers) (timeout : ℕ) : Prop where
  /-- A success has every line in time. -/
  registered : (awaitRegistration observations timeout).code = 0 → ∀ worker,
    ∃ tick, 1 ≤ tick ∧ tick ≤ timeout ∧ observations.line tick worker
  /-- Until a success, every worker is up. -/
  alive : (awaitRegistration observations timeout).code = 0 → ∀ worker tick, 1 ≤ tick →
    tick ≤ (awaitRegistration observations timeout).tick → observations.alive tick worker
  /-- A failure cancels every job. -/
  tornDown : (awaitRegistration observations timeout).code ≠ 0 →
    (awaitRegistration observations timeout).calls = teardownAll observations ∧
      ∀ worker, .scancel worker ∈ (awaitRegistration observations timeout).calls

/-- Every worker is still up in the tick in which the last line is seen, when no worker was lost
before it. -/
def StaysUp (observations : Observations workers) (timeout : ℕ) : Prop :=
  ∀ tick, 1 ≤ tick → tick ≤ timeout → AllSeen observations tick →
    (∀ early, 1 ≤ early → early < tick →
      ¬ AllSeen observations early ∧ NoneLost observations early) →
      ∀ worker, observations.alive tick worker

/-- A success of the script means that every worker is up exactly when the workers whose lines
were seen first stay up until the last line is seen. -/
theorem sound_iff (observations : Observations workers) (timeout : ℕ) :
    Sound observations timeout ↔ StaysUp observations timeout := by
  constructor
  · intro sound tick positive in_time seen earlier worker
    have success := awaitRegistration_of_seen positive in_time seen earlier
    exact sound.alive (by rw [success]) worker tick positive (by rw [success])
  · intro staysUp
    refine ⟨fun success worker => ?_, fun success worker tick positive inside => ?_,
      tornDown_of_failure⟩
    · rcases seen_of_success success with ⟨tick, _, positive, in_time, seen, _⟩ | nobody
      · exact ⟨tick, positive, in_time, seen worker⟩
      · exact nobody.elim worker
    · rcases seen_of_success success with ⟨last, last_eq, first, in_time, seen, earlier⟩ | nobody
      · rw [last_eq] at inside
        exact alive_anti inside (staysUp last first in_time seen earlier worker)
      · exact nobody.elim worker

/-- Two workers of which the first registers in the first second and exits in the next, and the
other registers in the third. -/
def exitsEarly : Observations 2 where
  line tick worker := if worker = 0 then 1 ≤ tick else 3 ≤ tick
  alive tick worker := worker ≠ 0 || tick ≤ 1
  line_stays tick worker seen := by
    by_cases first : worker = 0
    · simp [first]
    · simp only [first, if_false, decide_eq_true_eq] at seen ⊢
      omega
  dead_stays tick worker alive := by
    simp only [Bool.or_eq_true, decide_eq_true_eq] at alive ⊢
    omega
  aliveAtTeardown worker := worker = 1

/-- The launch is a success with one worker down. -/
theorem not_sound_exitsEarly : ¬ Sound exitsEarly 10 := by
  intro sound
  have up := sound.alive (by decide) 0 3 (by decide) (by decide)
  revert up
  decide

end GpuPrefill

end RduHdi
