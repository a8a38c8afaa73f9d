import TestOrch.System.Step

/-!
# The sweep against the heartbeats

The sweep decides which hosts are dead from one read and acts on it in two later commits. What it
does is right as long as no heartbeat of an affected host takes effect in between.
-/

namespace TestOrch

open Transition

/-- What the next commit of the process does is justified by the stored rows: the hosts that a sweep
marks offline are stale, and the runs that it fails target hosts that are offline. -/
def Proc.Justified (w : World) : Proc → Prop
  | .sweep _ (.mark cutoff affected) => ∀ r ∈ affected,
      ∀ row ∈ w.hosts.get? r.hostId, row.isStale cutoff = true
  | .sweep _ (.fail orphaned) => ∀ r ∈ orphaned,
      ∀ row ∈ w.execs.get? r.testId, ∃ h ∈ row.targetHostId, w.Offline h
  | _ => True

instance (w : World) : ∀ proc : Proc, Decidable (proc.Justified w)
  | .sweep _ (.mark cutoff affected) => inferInstanceAs (Decidable (∀ r ∈ affected,
      ∀ row ∈ w.hosts.get? r.hostId, row.isStale cutoff = true))
  | .sweep _ (.fail orphaned) => inferInstanceAs (Decidable (∀ r ∈ orphaned,
      ∀ row ∈ w.execs.get? r.testId, ∃ h ∈ row.targetHostId, w.Offline h))
  | .sweep _ .start | .sweep _ (.read _) | .sweep _ (.select _) | .sweep _ .done | .sweep _ .raised
  | .submit .. | .task _ | .heartbeat .. | .update .. | .reap .. | .dead _ =>
    inferInstanceAs (Decidable True)

/-- What the step commits for a sweep is justified. -/
def Justified (s : Sys) : Act → Prop
  | .advance p (.ok _) => ∀ proc ∈ s.procs[p]?, proc.Justified s.world
  | _ => True

/-- No active run targets the host. -/
def World.Vacant (w : World) (hostId : String) : Prop :=
  ∀ row ∈ w.execs.rows, row.targetHostId = some hostId → row.status.active = false

instance (w : World) (hostId : String) : Decidable (w.Vacant hostId) :=
  inferInstanceAs (Decidable (∀ row ∈ w.execs.rows, _))

/-- A heartbeat of `hostId` that loaded `loaded` and carries the time `now` may commit beside the
process: it does not freshen a host that a sweep is about to mark offline, and does not bring back
one whose runs a sweep is about to fail. -/
def Proc.Tolerates (w : World) (hostId : String) (loaded : WorkerHost) (now : ℤ) : Proc → Prop
  | .sweep _ (.mark cutoff affected) => hostId ∈ affected.map WorkerHost.hostId → now < cutoff
  | .sweep _ (.select hostIds) => hostId ∈ hostIds → loaded.isOnline = true ∨ w.Vacant hostId
  | .sweep _ (.fail orphaned) =>
    some hostId ∈ orphaned.map TestExecution.targetHostId → loaded.isOnline = true
  | _ => True

instance (w : World) (hostId : String) (loaded : WorkerHost) (now : ℤ) :
    ∀ proc : Proc, Decidable (proc.Tolerates w hostId loaded now)
  | .sweep _ (.mark cutoff affected) =>
    inferInstanceAs (Decidable (hostId ∈ affected.map WorkerHost.hostId → now < cutoff))
  | .sweep _ (.select hostIds) => inferInstanceAs (Decidable
      (hostId ∈ hostIds → loaded.isOnline = true ∨ w.Vacant hostId))
  | .sweep _ (.fail orphaned) => inferInstanceAs (Decidable
      (some hostId ∈ orphaned.map TestExecution.targetHostId → loaded.isOnline = true))
  | .sweep _ .start | .sweep _ (.read _) | .sweep _ .done | .sweep _ .raised | .submit .. | .task _
  | .heartbeat .. | .update .. | .reap .. | .dead _ => inferInstanceAs (Decidable True)

/-- The commit of the process, if it is one of a heartbeat, is tolerated by the sweeps under way. -/
def Proc.BeatTolerated (s : Sys) : Proc → Prop
  | .heartbeat hostId _ (.commit _ (some loaded) now) =>
    Pool.All s.procs fun _ other => other.Tolerates s.world hostId loaded now
  | _ => True

instance (s : Sys) : ∀ proc : Proc, Decidable (proc.BeatTolerated s)
  | .heartbeat hostId _ (.commit _ (some loaded) now) => inferInstanceAs (Decidable
      (Pool.All s.procs fun _ other => other.Tolerates s.world hostId loaded now))
  | .heartbeat _ _ .count | .heartbeat _ _ .cached | .heartbeat _ _ (.read _)
  | .heartbeat _ _ (.stamp ..) | .heartbeat _ _ (.commit _ none _) | .heartbeat _ _ .done
  | .submit .. | .task _ | .update .. | .sweep .. | .reap .. | .dead _ =>
    inferInstanceAs (Decidable True)

/-- The condition on a run of sweeps and heartbeats. -/
def BeatTolerated (s : Sys) : Act → Prop
  | .advance p (.ok _) => ∀ proc ∈ s.procs[p]?, proc.BeatTolerated s
  | _ => True

instance (s : Sys) : ∀ a, Decidable (BeatTolerated s a)
  | .advance p (.ok _) => inferInstanceAs (Decidable (∀ proc ∈ s.procs[p]?, proc.BeatTolerated s))
  | .advance _ .raises | .launch _ | .deliver .. | .redeliver .. | .kill _ | .exit .. | .tick _ =>
    inferInstanceAs (Decidable True)

def World.Stale (w : World) (cutoff : ℤ) (hostId : String) : Prop :=
  ∃ row, w.hosts.get? hostId = some row ∧ row.isStale cutoff = true

/-- The stored row of the test names the host. -/
def World.Targets (w : World) (testId hostId : String) : Prop :=
  ∃ row, w.execs.get? testId = some row ∧ row.targetHostId = some hostId

/-- A sweep under way is justified by the stored rows. -/
def World.Supports (w : World) : Proc → Prop
  | .sweep _ (.mark cutoff affected) => ∀ r ∈ affected, w.Stale cutoff r.hostId
  | .sweep _ (.select hostIds) => ∀ h ∈ hostIds, w.Offline h ∨ w.Vacant h
  | .sweep _ (.fail orphaned) => ∀ r ∈ orphaned,
      ∃ h, r.targetHostId = some h ∧ w.Targets r.testId h ∧ w.Offline h
  | _ => True

variable {s s' : Sys} {w w' : World} {p : ℕ} {proc : Proc} {o : Outcome}

/-- What support depends on: hosts to be marked stay stale, hosts that were marked stay offline as
long as runs target them, the runs keep their targets and do not become active. -/
lemma World.Supports.mono (h : w.Supports proc)
    (hstale : ∀ maxAge cutoff affected, proc = .sweep maxAge (.mark cutoff affected) →
      ∀ k ∈ affected.map WorkerHost.hostId, w.Stale cutoff k → w'.Stale cutoff k)
    (hselect : ∀ maxAge hostIds, proc = .sweep maxAge (.select hostIds) →
      ∀ k ∈ hostIds, w.Offline k → w'.Offline k ∨ w.Vacant k)
    (hfail : ∀ maxAge orphaned, proc = .sweep maxAge (.fail orphaned) →
      ∀ k, some k ∈ orphaned.map TestExecution.targetHostId → w.Offline k → w'.Offline k)
    (htarget : ∀ t k, w.Targets t k → w'.Targets t k)
    (hvacant : ∀ k, w.Vacant k → w'.Vacant k) : w'.Supports proc := by
  match proc with
  | .sweep maxAge (.mark cutoff affected) =>
    intro r hr
    exact hstale _ _ _ rfl _ (List.mem_map_of_mem hr) (h r hr)
  | .sweep maxAge (.select hostIds) =>
    intro k hk
    rcases h k hk with hoff | hvac
    · exact (hselect _ _ rfl k hk hoff).imp_right (hvacant k)
    · exact .inr (hvacant k hvac)
  | .sweep maxAge (.fail orphaned) =>
    intro r hr
    obtain ⟨k, hk, ht, hoff⟩ := h r hr
    have hmem : some k ∈ orphaned.map TestExecution.targetHostId :=
      List.mem_map.mpr ⟨r, hr, hk⟩
    exact ⟨k, hk, htarget _ _ ht, hfail _ _ rfl k hmem hoff⟩
  | .sweep _ .start | .sweep _ (.read _) | .sweep _ .done | .sweep _ .raised | .submit .. | .task _
  | .heartbeat .. | .update .. | .reap .. | .dead _ => trivial

/-- A change that keeps every host as it is, except that it may go offline, keeps all support. -/
lemma World.Supports.of_hosts (h : w.Supports proc)
    (hrow : ∀ k row, w.hosts.get? k = some row → ∃ row', w'.hosts.get? k = some row' ∧
      row'.lastHeartbeat = row.lastHeartbeat ∧ (row.isOnline = false → row'.isOnline = false))
    (htarget : ∀ t k, w.Targets t k → w'.Targets t k)
    (hvacant : ∀ k, w.Vacant k → w'.Vacant k) : w'.Supports proc := by
  have hoff (k : String) : w.Offline k → w'.Offline k := by
    rintro ⟨row, hk, hoff⟩
    obtain ⟨row', hk', -, honline⟩ := hrow k row hk
    exact ⟨row', hk', honline hoff⟩
  refine h.mono ?_ (fun _ _ _ k _ hk => .inl (hoff k hk)) (fun _ _ _ k _ => hoff k) htarget hvacant
  rintro - cutoff - - k - ⟨row, hk, hst⟩
  obtain ⟨row', hk', hbeat, -⟩ := hrow k row hk
  exact ⟨row', hk', by simpa [WorkerHost.isStale, hbeat] using hst⟩

lemma World.Supports.congr (h : w.Supports proc) (hh : w'.hosts = w.hosts)
    (he : w'.execs = w.execs) : w'.Supports proc :=
  h.of_hosts (fun k row hk => ⟨row, by rw [hh, hk], rfl, id⟩)
    (fun t k ⟨row, ht, hk⟩ => ⟨row, by rw [he, ht], hk⟩) fun k hk row hrow => hk row (he ▸ hrow)

lemma World.Supports.commitOffline (h : w.Supports proc) (hostIds : List String) :
    (w.commitOffline hostIds).Supports proc := by
  refine h.of_hosts (fun k row hk => ?_) (fun t k ht => ht) fun k hk => hk
  simp only [World.commitOffline, get?_markOffline, hk, Option.map_some]
  split_ifs
  · exact ⟨_, rfl, rfl, fun _ => rfl⟩
  · exact ⟨row, rfl, rfl, id⟩

lemma World.Supports.commitFailed (h : w.Supports proc) (testIds : List String) :
    (w.commitFailed testIds).Supports proc := by
  refine h.of_hosts (fun k row hk => ⟨row, hk, rfl, id⟩) (fun t k ⟨row, ht, hk⟩ => ?_)
    fun k hk row hrow => ?_
  · by_cases hmem : t ∈ testIds
    · exact ⟨{ row with status := .FAILED, updatedAt := w.clock },
        by simp [World.commitFailed, hmem, ht], hk⟩
    · exact ⟨row, by simp [World.commitFailed, hmem, ht], hk⟩
  · obtain ⟨old, hold, rfl⟩ := List.mem_map.mp hrow
    split_ifs
    · intro _
      exact rfl
    · exact hk old hold

/-- A heartbeat that the process tolerates leaves its support. -/
lemma World.Supports.beat {hostId : String} {loaded : WorkerHost} {live now : ℤ} {cpu : ℚ}
    (h : w.Supports proc) (htol : proc.Tolerates w hostId loaded now)
    (hw : w.commitHost p hostId loaded (loaded.beat live cpu now) = some w') :
    w'.Supports proc := by
  obtain ⟨hexecs, hget⟩ := World.get?_of_commitHost hw
  have hoff (k : String) (hk : k = hostId → loaded.isOnline = true) :
      w.Offline k → w'.Offline k := by
    rintro ⟨row, hrow, hoff⟩
    by_cases heq : k = hostId
    · refine ⟨loaded.flush (loaded.beat live cpu now) row, ?_, ?_⟩
      · rw [hget, if_pos heq, hrow, Option.map_some]
      · simp [WorkerHost.flush, WorkerHost.beat, hk heq, hoff]
    · exact ⟨row, by rw [hget, if_neg heq, hrow], hoff⟩
  refine h.mono ?_ ?_ ?_ ?_ fun k hk row hrow => hk row (hexecs ▸ hrow)
  · rintro maxAge cutoff affected rfl k hk ⟨row, hrow, hst⟩
    by_cases heq : k = hostId
    · refine ⟨loaded.flush (loaded.beat live cpu now) row, ?_, ?_⟩
      · rw [hget, if_pos heq, hrow, Option.map_some]
      · have hnow : now < cutoff := htol (heq ▸ hk)
        -- the commit leaves the stored stamp or writes the one the heartbeat took
        by_cases hsame : some (DateTime.utc now) = loaded.lastHeartbeat
        · simpa [WorkerHost.isStale, WorkerHost.flush, WorkerHost.beat, hsame] using hst
        · simpa [WorkerHost.isStale, WorkerHost.flush, WorkerHost.beat, writeBack_of_ne hsame]
            using hnow
    · exact ⟨row, by rw [hget, if_neg heq, hrow], hst⟩
  · rintro maxAge hostIds rfl k hk hkoff
    by_cases heq : k = hostId
    · rcases htol (heq ▸ hk) with honline | hvac
      · exact .inl (hoff k (fun _ => honline) hkoff)
      · exact .inr (heq ▸ hvac)
    · exact .inl (hoff k (fun h => absurd h heq) hkoff)
  · rintro maxAge orphaned rfl k hk
    exact hoff k fun heq => htol (heq ▸ hk)
  · rintro t k ⟨row, ht, hk⟩
    exact ⟨row, by rw [hexecs, ht], hk⟩

lemma World.Supports.register {row : WorkerHost} (h : w.Supports proc)
    (hw : w.insertHost p row = some w') : w'.Supports proc := by
  obtain ⟨hexecs, hnone, hget⟩ := World.get?_of_insertHost hw
  refine h.of_hosts (fun k row' hk => ⟨row', ?_, rfl, id⟩)
    (fun t k ⟨row, ht, hk⟩ => ⟨row, by rw [hexecs, ht], hk⟩)
    fun k hk row hrow => hk row (hexecs ▸ hrow)
  have hne : k ≠ row.hostId := by
    rintro rfl
    simp [hnone] at hk
  simp [hget, hne, hk]

/-- The sweep that takes the step is supported afterwards. -/
lemma World.Supports.sweep {maxAge : ℤ} {pc pc' : SweepPc} (h : w.Supports (.sweep maxAge pc))
    (hr : SweepRule p maxAge w pc o w' pc') : w'.Supports (.sweep maxAge pc') := by
  cases hr with
  | read hne =>
    intro r hr
    obtain ⟨hmem, -, hst⟩ := mem_staleHosts.mp hr
    exact ⟨r, Table.get?_of_mem hmem, hst⟩
  | @mark _ cutoff affected hfree =>
    intro k hk
    obtain ⟨r, hr, rfl⟩ := List.mem_map.mp hk
    obtain ⟨row, hrow, -⟩ := h r hr
    refine .inl ⟨{ row with isOnline := false }, ?_, rfl⟩
    simp [World.commitOffline, hk, hrow]
  | select =>
    intro r hr
    obtain ⟨hmem, ⟨k, hk, htarget⟩, hactive⟩ := mem_orphanedRuns.mp hr
    rcases h k hk with hoff | hvac
    · exact ⟨k, htarget, ⟨r, Table.get?_of_mem hmem, htarget⟩, hoff⟩
    · simp [hvac r hmem htarget] at hactive
  | _ => trivial

/-- Every sweep under way is supported. -/
def SweepsSupported (s : Sys) : Prop := Pool.All s.procs fun _ proc => s.world.Supports proc

lemma sweepsSupported_step {a : Act} (hi : SweepsSupported s)
    (hkind : Among [.sweep, .heartbeat] s a) (htol : BeatTolerated s a)
    (h : step s a = some s') : SweepsSupported s' := by
  cases SysRule.of_step h with
  | @launch l =>
    refine Pool.all_append_singleton.mpr ⟨hi, ?_⟩
    cases l <;> trivial
  | deliver hm hq => exact absurd hkind (by simp [Among])
  | redeliver hm hq => exact absurd hkind (by simp [Among])
  | submit hp hr => exact absurd (hkind _ hp) (by simp [Proc.kind])
  | task hp hr => exact absurd (hkind _ hp) (by simp [Proc.kind])
  | update hp hr => exact absurd (hkind _ hp) (by simp [Proc.kind])
  | reap hp hr => exact absurd (hkind _ hp) (by simp [Proc.kind])
  | heartbeat hp hr =>
    refine (Pool.all_set hp).mpr ⟨trivial, fun j other _ hj => ?_⟩
    -- The heartbeat commits only where all sweeps under way tolerate it.
    have hother := hi j other hj
    cases hr with
    | update hw => exact hother.beat (htol _ hp j other hj) hw
    | register hw => exact hother.register hw
    | _ => exact hother
  | sweep hp hr =>
    refine (Pool.all_set hp).mpr ⟨(hi _ _ hp).sweep hr, fun j other _ hj => ?_⟩
    have hother := hi j other hj
    cases hr with
    | mark hfree => exact hother.commitOffline _
    | fail => exact hother.commitFailed _
    | _ => exact hother.congr rfl rfl
  | kill hp =>
    exact (Pool.all_set hp).mpr ⟨trivial, fun j other _ hj => (hi j other hj).congr rfl rfl⟩
  | exit hc hrun => exact hi.mono fun _ _ h => h.congr rfl rfl
  | tick => exact hi.mono fun _ _ h => h.congr rfl rfl

/-- Where all sweeps are supported, the next step is justified. -/
lemma SweepsSupported.justified (hi : SweepsSupported s) (a : Act) : Justified s a := by
  match a with
  | .advance p (.ok _) =>
    intro proc hp
    have hproc := hi p proc hp
    match proc with
    | .sweep _ (.mark cutoff affected) =>
      intro r hr row hrow
      obtain ⟨row', hrow', hst⟩ := hproc r hr
      rw [Option.mem_def, hrow', Option.some.injEq] at hrow
      exact hrow ▸ hst
    | .sweep _ (.fail orphaned) =>
      intro r hr row hrow
      obtain ⟨k, -, ⟨row', hrow', htarget⟩, hoff⟩ := hproc r hr
      rw [Option.mem_def, hrow', Option.some.injEq] at hrow
      exact ⟨k, hrow ▸ htarget, hoff⟩
    | .sweep _ .start | .sweep _ (.read _) | .sweep _ (.select _) | .sweep _ .done
    | .sweep _ .raised | .submit .. | .task _ | .heartbeat .. | .update .. | .reap ..
    | .dead _ => trivial
  | .advance _ .raises | .launch _ | .deliver .. | .redeliver .. | .kill _ | .exit .. | .tick _ =>
    trivial

/-- In every run of sweeps and heartbeats in which the sweeps tolerate the heartbeats, each commit
of a sweep is justified by the rows stored at that moment. -/
theorem sweep_commits_justified {s₀ : Sys} {a : Act} (h₀ : s₀.Idle)
    (h : Reaches step (fun s a => Among [.sweep, .heartbeat] s a ∧ BeatTolerated s a) s₀ s) :
    Justified s a := by
  refine SweepsSupported.justified (h.invariant ?_ ?_) a
  · simp [SweepsSupported, h₀.1]
  · intro _ _ _ hi hG hs
    exact sweepsSupported_step hi hG.1 hG.2 hs

/-- A sweep finds the host stale, and a heartbeat that took its time before the cutoff commits
before the host is marked. -/
def lateBeat : List Act :=
  [.launch (.heartbeat "h" 0), .advance 0 (.ok none), .advance 0 (.ok none), .advance 0 (.ok none),
    .tick 100000000, .launch (.sweep (seconds 60)), .advance 1 (.ok none), .advance 1 (.ok none),
    .advance 0 (.ok none)]

/-- The next commit marks the host offline, which is right. -/
theorem lateBeat_justified : ∃ s : Sys,
    s.procs[1]? = some (.sweep (seconds 60) (.mark 40000000 [idleHost])) ∧
      Justified s (.advance 1 (.ok none)) := by
  obtain ⟨s, hs, hp⟩ := exists_reaches_of_guardedRun step
    (fun s a => Among [.sweep, .heartbeat] s a ∧ BeatTolerated s a) (.single idleHost) lateBeat
    (fun s => s.procs[1]? = some (.sweep (seconds 60) (.mark 40000000 [idleHost])))
    (by decide +kernel)
  exact ⟨s, of_decide_eq_true hp, sweep_commits_justified (.single _) hs⟩

/-- A sweep finds the host stale, and the host reports before it is marked. -/
def freshBeat : List Act :=
  [.tick 100000000, .launch (.sweep (seconds 60)), .advance 0 (.ok none), .advance 0 (.ok none),
    .launch (.heartbeat "h" 0), .advance 1 (.ok none), .advance 1 (.ok none), .advance 1 (.ok none),
    .advance 1 (.ok none)]

/-- The next commit then marks a live host offline. -/
theorem freshBeat_unjustified :
    ¬ ∀ (s₀ s : Sys) (a : Act), s₀.Idle →
      Reaches step (Among [.sweep, .heartbeat]) s₀ s → Justified s a := by
  intro h
  obtain ⟨s, hs, hp⟩ := exists_reaches_of_guardedRun step (Among [.sweep, .heartbeat])
    (.single idleHost) freshBeat (fun s => s.procs[0]?.any fun proc => !proc.Justified s.world)
    (by decide +kernel)
  obtain ⟨proc, hproc, hp⟩ := (Option.any_eq_true _ _).mp hp
  have hj := h _ s (.advance 0 (.ok none)) (.single _) hs proc hproc
  simp [hj] at hp

end TestOrch
