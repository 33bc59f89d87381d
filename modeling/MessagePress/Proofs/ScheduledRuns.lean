import MessagePress.Proofs.AcceptedSettings
import MessagePress.Proofs.SingleRuns
import MessagePress.Proofs.SingleSessions
import MessagePress.Proofs.WatchedRuns

/-! Runs on a schedule. They leave it to a scheduler when to push, so whatever holds of schedulers
holds of them. A push that fails is counted, and ends neither the run nor another push. -/

namespace MessagePress.Proofs.ScheduledRuns
open Template Delivery CommandLine Schedule
open RunStatistics PunctualRuns SingleSessions WatchedRuns Startup SingleRuns PartialRuns

variable {settings : Settings} {patience : ℕ} {scheduler : Scheduler}
  {job : Job} {schedule : Config.Schedule} {circumstances : Circumstances} {transport : Transport}
  {arguments : List String} {options : Options}

theorem settings_eq {interval workers : ℕ} (known : Settings.of interval workers = .ok settings) :
    settings.interval = interval ∧ settings.workers = workers := by
  unfold Settings.of at known
  split at known
  · split at known
    · cases known
      exact ⟨rfl, rfl⟩
    · cases known
  · cases known

theorem result_sound (push : Push) : Job.result push ≠ .panicked := by
  unfold Job.result
  split <;> simp

theorem result_done (push : Push) : Job.result push = .done ↔ push.fault.isNone := by
  unfold Job.result
  split <;> simp [*]

theorem result_text (push : Push) : (Job.result push).text?.isSome = push.fault.isSome := by
  unfold Job.result
  split <;> simp [Result.text?, *]

theorem serve_ok (job : Job)
    (known : Settings.of schedule.interval.millis schedule.workers = .ok settings) :
    ∃ scheduler, job.serve schedule circumstances transport = .ok scheduler ∧
      Stopped settings (job.task circumstances transport).script circumstances.patience scheduler := by
  obtain ⟨scheduler, stops, stopped⟩ :=
    stop_ok settings (job.task circumstances transport).script circumstances.patience
  refine ⟨scheduler, ?_, stopped⟩
  rw [Job.serve, known]
  exact stops

/-- Pushes that are watched until each of them has ended come to what is served, if they take as
long as they have taken. -/
theorem serve_watched {landings : List (ℕ × Flight)} {watch : Watch} (job : Job)
    (known : Settings.of schedule.interval.millis schedule.workers = .ok settings)
    (watched : Watched settings landings watch) (now : circumstances.patience = watch.scheduler.now)
    (landed : ∀ number < watch.scheduler.ledger.begun, ∃ flight, (number, flight) ∈ landings)
    (ends : ∀ landing ∈ landings,
      landing.2.ending = (Job.result (job.pushAt circumstances landing.1).1).ending) :
    ∃ durations, job.serve schedule circumstances { transport with durations } =
      watch.scheduler.stop := by
  obtain ⟨script, follows⟩ := follows_of_watched watched
  refine ⟨fun number => (script number).duration, ?_⟩
  have same := @Follows.wait settings script
    (job.task circumstances { transport with durations := fun number => (script number).duration }).script
    watch landings follows ?_ ?_
  · rw [same, ← now, Job.serve, known]
    rfl
  · intro number before
    obtain ⟨flight, member⟩ := landed number before
    have ending := ends _ member
    rw [← (follows.landed _ member).2.2] at ending
    change (script number).ending = _ at ending
    simp only [Task.script, Job.task, ← ending]
  · intro number after
    change _ ≤ (script number).duration
    rw [follows.ahead after]
    exact Nat.le_of_lt follows.early

theorem prepare_settings (ready : prepare circumstances.read options transport = .ok job)
    (enabled : job.schedule = some schedule) :
    ∃ settings, Settings.of schedule.interval.millis schedule.workers = .ok settings := by
  obtain ⟨config, loaded, opened⟩ := of_bind ready
  obtain ⟨sink, -, opened⟩ := of_bind opened
  obtain ⟨streams, -, whole⟩ := of_bind opened
  cases whole
  obtain ⟨given, active⟩ := Option.filter_eq_some_iff.mp enabled
  simp only [Bool.and_eq_true] at active
  exact ((AcceptedSettings.load_ready (of_mapError loaded)).schedule schedule given active.1).settings

theorem prepare_dry (ready : prepare circumstances.read options transport = .ok job)
    (dry : options.dryRun = true) :
    job.sink = .accepting ∧ ∀ stream ∈ job.streams, 0 < stream.batchSize := by
  obtain ⟨config, loaded, opened⟩ := of_bind ready
  obtain ⟨sink, sinks, opened⟩ := of_bind opened
  obtain ⟨streams, started, whole⟩ := of_bind opened
  cases whole
  rw [openSink, if_pos dry] at sinks
  cases sinks
  refine ⟨rfl, ?_⟩
  have started := of_mapError started
  rcases loadAll_cases circumstances.read config.payloads with ⟨_, matched, same⟩ | ⟨_, _, _, failed⟩
  · cases same.symm.trans started
    exact batchSize_of_forall₂ matched (load_batchSize (of_mapError loaded))
  · cases failed.symm.trans started

/-- The first pushes of a run on a schedule. -/
def pushes (job : Job) (circumstances : Circumstances) (count : ℕ) : List Push :=
  (List.range count).map fun number => (job.pushAt circumstances number).1

/-- Statistics that have counted pushes, and those of them that failed. -/
structure Counts (pushes : List Push) (statistics : Statistics) : Prop where
  executions : statistics.executions = pushes.length
  successes : statistics.successes = pushes.countP (·.fault.isNone)
  errors : statistics.errors = pushes.countP (·.fault.isSome)

theorem counts_of_stopped
    (stopped : Stopped settings (job.task circumstances transport).script patience scheduler) :
    Counts (pushes job circumstances scheduler.ledger.begun) scheduler.ledger.statistics := by
  obtain ⟨executions, successes, errors⟩ := stopped.counted fun _ => result_sound _
  refine ⟨?_, ?_, ?_⟩
  · rw [executions, pushes, List.length_map, List.length_range]
  · rw [successes, pushes, List.countP_map]
    exact List.countP_congr fun number _ => by simp [Job.task, result_done]
  · rw [errors, pushes, List.countP_map]
    exact List.countP_congr fun number _ => by simp [Job.task, result_text]

/-- A run on a schedule leaves it to a scheduler when to push, which is started, and stopped when
the run is told to. The scheduler counts all pushes and those of them that failed, all of them are
printed, and the run ends as its sink does. -/
theorem run_scheduled (asked : readOptions arguments circumstances.environment = .ok options)
    (ready : prepare circumstances.read options transport = .ok job)
    (enabled : job.schedule = some schedule) :
    ∃ settings scheduler,
      Settings.of schedule.interval.millis schedule.workers = .ok settings ∧
      Stopped settings (job.task circumstances transport).script circumstances.patience scheduler ∧
      Counts (pushes job circumstances scheduler.ledger.begun) scheduler.ledger.statistics ∧
      run arguments circumstances transport =
        job.conclude ((pushes job circumstances scheduler.ledger.begun).flatMap job.printed) := by
  obtain ⟨settings, known⟩ := prepare_settings ready enabled
  obtain ⟨scheduler, serves, stopped⟩ := serve_ok job known
  refine ⟨settings, scheduler, known, stopped, counts_of_stopped stopped, ?_⟩
  simp only [run, asked, ready, enabled, Job.runScheduled, serves, pushes, List.flatMap_map]

/-- What is left of the supply for the push of a number. -/
def supplyAt (job : Job) (circumstances : Circumstances) : ℕ → Template.Supply
  | 0 => circumstances.supply
  | number + 1 => (job.pushAt circumstances number).2

theorem pushAt_eq (job : Job) (circumstances : Circumstances) (number : ℕ) :
    job.pushAt circumstances number =
      job.push (circumstances.orders number) (supplyAt job circumstances number) := by
  cases number <;> rfl

/-- A dry run on a schedule succeeds, whichever of its templates can be rendered. Each push prints
a batch of every stream whose template can be; if none lasts too long, there is one push for every
interval that begins before the run is told to stop. -/
theorem dry_run_scheduled (asked : readOptions arguments circumstances.environment = .ok options)
    (dry : options.dryRun = true)
    (ready : prepare circumstances.read options transport = .ok job)
    (enabled : job.schedule = some schedule) :
    ∃ outputs : List (List Char), run arguments circumstances transport = ⟨0, outputs.flatten, ""⟩ ∧
      (∀ number output, outputs[number]? = some output →
        Supplied job.verbose job.streams (supplyAt job circumstances number) →
          Prints job.streams output) ∧
      ((∀ number, transport.durations number < schedule.workers * schedule.interval.millis) →
        ∀ number, number < outputs.length ↔
          number * schedule.interval.millis < circumstances.patience) := by
  obtain ⟨settings, scheduler, known, stopped, -, ran⟩ := run_scheduled asked ready enabled
  obtain ⟨printing, positive⟩ := prepare_dry ready dry
  refine ⟨(pushes job circumstances scheduler.ledger.begun).map job.printed, ?_, ?_, ?_⟩
  · rw [ran, List.flatMap_def, Job.conclude, printing]
    rfl
  · intro number output known supplied
    simp only [pushes, List.map_map, List.getElem?_map, Option.map_eq_some_iff] at known
    obtain ⟨_, found, rfl⟩ := known
    obtain ⟨_, rfl⟩ := List.getElem?_eq_some_iff.mp found
    rw [List.getElem_range, Function.comp_apply, pushAt_eq, Job.printed, Job.push, printing]
    exact (push_resolved positive supplied _).1
  · intro short number
    obtain ⟨interval, workers⟩ := settings_eq known
    have steady : Steady settings (job.task circumstances transport).script := by
      intro number
      refine ⟨fun panics => result_sound _ (ending_eq_panic.mp panics), ?_⟩
      rw [interval, workers]
      exact short number
    rw [← interval, ← (stopped.punctual steady).2 number, pushes]
    simp

/-- The second push, for which no random bytes are left, prints nothing. -/
example : run ["--dry-run", "-cconfig.yaml"] { sample sampleSchedule with patience := 5001 } =
    ⟨0, "\x7b\"a\":\"3\"\x7d\n\x7b\"a\":\"3\"\x7d\n".toList, ""⟩ := by decide +kernel

end MessagePress.Proofs.ScheduledRuns
