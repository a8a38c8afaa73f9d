import TestOrch.System.MaintenanceLoop

/-!
# How soon a dead host is offline

When the worker of a host is dead, nothing refreshes the heartbeat in its row, and from the time at
which it is too old the next sweep marks the host offline. The loop starts a sweep at the latest the
interval after the one before, so what passes until then is at most the interval and twice the time
that a sweep takes.
-/

namespace TestOrch

open Transition

/-- The row of the host keeps its heartbeat and does not come back online. -/
def World.StaysDown (host : String) (w w' : World) : Prop :=
  ∀ row, w.hosts.get? host = some row → ∃ row', w'.hosts.get? host = some row' ∧
    row'.lastHeartbeat = row.lastHeartbeat ∧ (row'.isOnline = true → row.isOnline = true)

/-- The process is no heartbeat of the host, or one that is done. -/
def Proc.Silent (host : String) : Proc → Prop
  | .heartbeat hostId _ pc => hostId = host → pc = .done
  | _ => True

/-- No heartbeat of the host is under way. -/
def Sys.Silent (host : String) (s : Sys) : Prop := Pool.All s.procs fun _ proc => proc.Silent host

variable {s s' : Sys} {w w' : World} {p : ℕ} {o : Outcome} {host hostId : String}

namespace World.StaysDown

lemma of_eq (h : w'.hosts = w.hosts) : StaysDown host w w' :=
  fun row hrow => ⟨row, h ▸ hrow, rfl, id⟩

/-- A commit that sets neither the heartbeat nor the flag, or is of another row. -/
lemma commitHost {loaded new : WorkerHost} (hw : w.commitHost p hostId loaded new = some w')
    (h : hostId = host → new.lastHeartbeat = loaded.lastHeartbeat ∧
      new.isOnline = loaded.isOnline) : StaysDown host w w' := by
  obtain ⟨-, hget⟩ := World.get?_of_commitHost hw
  intro row hrow
  rw [hget, hrow]
  split_ifs with heq
  · obtain ⟨hbeat, honline⟩ := h heq.symm
    exact ⟨_, rfl, by simp [WorkerHost.flush, hbeat], by simp [WorkerHost.flush, honline]⟩
  · exact ⟨row, rfl, rfl, id⟩

lemma insertHost {new : WorkerHost} (hw : w.insertHost p new = some w') : StaysDown host w w' := by
  obtain ⟨-, hnone, hget⟩ := World.get?_of_insertHost hw
  intro row hrow
  have hne : host ≠ new.hostId := by
    rintro rfl
    simp [hnone] at hrow
  exact ⟨row, by rw [hget, if_neg hne, hrow], rfl, id⟩

lemma commitOffline (hostIds : List String) : StaysDown host w (w.commitOffline hostIds) := by
  intro row hrow
  rw [World.commitOffline, get?_markOffline, hrow]
  split_ifs
  · exact ⟨_, rfl, rfl, fun h => absurd h Bool.false_ne_true⟩
  · exact ⟨row, rfl, rfl, id⟩

end World.StaysDown

/-- While no heartbeat of the host is under way or starts, its row stays down. -/
lemma staysDown_of_step {a : Act} (hi : s.Silent host) (h : step s a = some s')
    (ha : ∀ cpu, a ≠ .launch (.heartbeat host cpu)) :
    s'.Silent host ∧ World.StaysDown host s.world s'.world := by
  -- A process that moves does not become a heartbeat of the host.
  have hset : ∀ {q : ℕ} {proc proc' : Proc} {w' : World}, s.procs[q]? = some proc →
      (proc.Silent host → proc'.Silent host) → Sys.Silent host ⟨w', s.procs.set q proc'⟩ := by
    intro q proc proc' w' hq hkept
    exact (Pool.all_set hq).mpr ⟨hkept (hi q proc hq), fun j other _ hj => hi j other hj⟩
  cases SysRule.of_step h with
  | @launch l =>
    refine ⟨Pool.all_append_singleton.mpr ⟨hi, ?_⟩, .of_eq rfl⟩
    cases l with
    | heartbeat hostId cpu =>
      rintro rfl
      exact absurd rfl (ha cpu)
    | _ => trivial
  | deliver => exact ⟨Pool.all_append_singleton.mpr ⟨hi, trivial⟩, .of_eq rfl⟩
  | redeliver => exact ⟨Pool.all_append_singleton.mpr ⟨hi, trivial⟩, .of_eq rfl⟩
  | submit hq hr =>
    refine ⟨hset hq fun _ => trivial, ?_⟩
    cases hr with
    -- The counters are written without the flag and the time.
    | reserve hw => exact .commitHost hw fun _ => ⟨rfl, rfl⟩
    | undo hpos hw => exact .commitHost hw fun _ => ⟨rfl, rfl⟩
    | _ => exact .of_eq rfl
  | task hq hr =>
    refine ⟨hset hq fun _ => trivial, ?_⟩
    cases hr with
    | decrement hpc hw => exact .commitHost hw fun _ => ⟨rfl, rfl⟩
    | _ => exact .of_eq rfl
  | @heartbeat q o hostId cpu pc w' pc' hq hr =>
    -- A heartbeat that still moves is one of another host.
    have hsilent : hostId = host → pc = .done := hi q _ hq
    have hother : hostId ≠ host := by
      intro heq
      have hdone := hsilent heq
      cases hr with
      | fails _ hlast => exact hlast hdone
      | _ => cases hdone
    refine ⟨hset hq fun _ heq => absurd heq hother, ?_⟩
    cases hr with
    | update hw => exact .commitHost hw fun heq => absurd heq hother
    | register hw => exact .insertHost hw
    | _ => exact .of_eq rfl
  | update hq hr =>
    refine ⟨hset hq fun _ => trivial, ?_⟩
    cases hr with
    | commit hw => exact .commitHost hw fun _ => ⟨rfl, rfl⟩
    | _ => exact .of_eq rfl
  | sweep hq hr =>
    refine ⟨hset hq fun _ => trivial, ?_⟩
    cases hr with
    | mark => exact .commitOffline _
    | _ => exact .of_eq rfl
  | reap hq hr =>
    refine ⟨hset hq fun _ => trivial, ?_⟩
    cases hr <;> exact .of_eq rfl
  | kill hq => exact ⟨hset hq fun _ => trivial, .of_eq rfl⟩
  | exit => exact ⟨hi, .of_eq rfl⟩
  | tick => exact ⟨hi, .of_eq rfl⟩

/-! ### The next sweep -/

/-- A sweep that computes its cutoff at `bound` or later marks the host offline, if it is not past
doing so. -/
def SweepPc.Finds (host : String) (bound : ℤ) : SweepPc → Prop
  | .start => True
  | .read cutoff => bound ≤ cutoff
  | .mark _ affected => host ∈ affected.map WorkerHost.hostId
  | .select _ | .fail _ | .done | .raised => False

lemma SweepPc.Finds.not_over {pc : SweepPc} {bound : ℤ} (h : pc.Finds host bound) :
    pc.isOver = false := by
  cases pc with
  | done => exact h.elim
  | raised => exact h.elim
  | _ => rfl

/-- An access of such a sweep leaves it so, or the host is offline. -/
lemma SweepRule.finds {maxAge bound : ℤ} {pc pc' : SweepPc} {url : Option String}
    {row : WorkerHost} (h : SweepRule p maxAge w pc (.ok url) w' pc') (hfinds : pc.Finds host bound)
    (hbound : bound ≤ w.clock - maxAge) (hrow : w.hosts.get? host = some row)
    (hstale : ∀ hb ∈ row.lastHeartbeat, hb.instant < bound) :
    w'.Offline host ∨ row.isOnline = false ∨ pc'.Finds host bound := by
  -- A row that is stale to the bound is stale to any later cutoff.
  have hmem (cutoff : ℤ) (hle : bound ≤ cutoff) (honline : row.isOnline = true) :
      row ∈ staleHosts w.hosts cutoff := by
    refine mem_staleHosts.mpr ⟨Table.mem_of_get? hrow, honline, ?_⟩
    cases hbeat : row.lastHeartbeat with
    | none => simp [WorkerHost.isStale, hbeat]
    | some hb => simpa [WorkerHost.isStale, hbeat] using (hstale hb hbeat).trans_le hle
  cases h with
  | start => exact .inr (.inr hbound)
  | @readNone _ cutoff hnil =>
    cases honline : row.isOnline with
    | false => exact .inr (.inl rfl)
    | true => simpa [hnil] using hmem cutoff hfinds honline
  | @read _ cutoff =>
    cases honline : row.isOnline with
    | false => exact .inr (.inl rfl)
    | true =>
      refine .inr (.inr (List.mem_map.mpr ⟨row, hmem cutoff hfinds honline, ?_⟩))
      exact Table.key_of_get? hrow
  | @mark _ cutoff affected hfree =>
    have hmarked : host ∈ affected.map WorkerHost.hostId := hfinds
    refine .inl ⟨{ row with isOnline := false }, ?_, rfl⟩
    rw [World.commitOffline, get?_markOffline, if_pos hmarked, hrow]
    rfl
  | selectNone => exact hfinds.elim
  | select => exact hfinds.elim
  | fail => exact hfinds.elim

namespace Backend

variable {interval maxAge limit : ℤ} {duration : ℕ} {b b' : Backend} {row : WorkerHost}

/-- No sweep takes longer than `duration`, and the loop goes on in time. -/
def Prompt (interval : ℤ) (duration : ℕ) (b : Backend) : Act → Prop
  | .sys (.tick dt) =>
    match b.loop with
    | .created => False
    | .sweeping _ => ∀ s ∈ b.begun.getLast?, b.now + dt ≤ s + duration
    | .waiting since => b.now + dt ≤ since + interval
    | .ended => True
  | _ => True

instance (interval : ℤ) (duration : ℕ) (b : Backend) : ∀ a, Decidable (Prompt interval duration b a)
  | .sys (.tick dt) =>
    match h : b.loop with
    | .created => isFalse (by simp [Prompt, h])
    | .sweeping _ => decidable_of_iff (∀ s ∈ b.begun.getLast?, b.now + dt ≤ s + duration) <| by
        simp [Prompt, h]
    | .waiting since => decidable_of_iff (b.now + dt ≤ since + interval) <| by simp [Prompt, h]
    | .ended => isTrue (by simp [Prompt, h])
  | .loop | .shutdown | .sys (.launch _) | .sys (.deliver ..) | .sys (.redeliver ..)
  | .sys (.advance ..) | .sys (.kill _) | .sys (.exit ..) => isTrue trivial

/-- The worker of the host is dead, no sweep raises and the backend is not shut down. -/
def Dead (host : String) (b : Backend) : Act → Prop
  | .shutdown => False
  | .sys (.launch (.heartbeat hostId _)) => hostId ≠ host
  | .sys (.advance p .raises) => (b.sys.procs[p]?).bind Proc.sweep? = none
  | _ => True

instance (host : String) (b : Backend) : ∀ a, Decidable (Dead host b a)
  | .shutdown => isFalse id
  | .sys (.launch (.heartbeat hostId _)) => inferInstanceAs (Decidable (hostId ≠ host))
  | .sys (.advance p .raises) =>
    inferInstanceAs (Decidable ((b.sys.procs[p]?).bind Proc.sweep? = none))
  | .loop | .sys (.launch (.submit _)) | .sys (.launch (.update _)) | .sys (.launch (.sweep _))
  | .sys (.launch (.reap _)) | .sys (.deliver ..) | .sys (.redeliver ..) | .sys (.advance _ (.ok _))
  | .sys (.kill _) | .sys (.exit ..) | .sys (.tick _) => isTrue trivial

/-- The loop is in time. -/
def Timely (interval : ℤ) (duration : ℕ) (b : Backend) : Prop :=
  match b.loop with
  | .sweeping _ => ∃ s, b.begun.getLast? = some s ∧ b.now ≤ s + duration
  | .waiting since => b.now ≤ since + interval
  | .created | .ended => True

/-- As long as the host is online, a sweep that finds it is under way or due; `limit` is the time
from which its heartbeat is too old. -/
def Pending (host : String) (interval maxAge limit : ℤ) (duration : ℕ) (b : Backend) : Prop :=
  match b.loop with
  | .created => b.now ≤ limit
  | .sweeping p => ∀ s ∈ b.begun.getLast?, s ≤ limit + interval + duration ∧
      (limit < s → ∃ pc, b.sys.procs[p]? = some (.sweep maxAge pc) ∧ pc.Finds host (s - maxAge))
  | .waiting since => since ≤ limit + duration
  | .ended => False

lemma timely_step {a : Act} (hinterval : 0 ≤ interval) (hi : Timely interval duration b)
    (hG : Prompt interval duration b a) (h : step interval maxAge b a = some b') :
    Timely interval duration b' := by
  cases Rule.of_step h with
  | start => exact ⟨b.now, by simp [startSweep], by simp [startSweep, now]⟩
  | noticed => simpa [Timely, awaitStop, now] using hinterval
  | cancelled => trivial
  | shutdown => exact hi
  | @sys a s' ha hs =>
    have hclock : s'.world.clock = b.now + a.elapsed := clock_of_step hs
    cases hloop : b.loop with
    | sweeping p =>
      simp only [Timely, hloop] at hi ⊢
      obtain ⟨s, hlast, hle⟩ := hi
      refine ⟨s, hlast, ?_⟩
      cases a with
      | tick dt =>
        simp only [Prompt, hloop] at hG
        exact hclock.trans_le (hG s hlast)
      | _ => exact (hclock.trans (Int.add_zero _)).trans_le hle
    | waiting since =>
      simp only [Timely, hloop] at hi ⊢
      cases a with
      | tick dt =>
        simp only [Prompt, hloop] at hG
        exact hclock.trans_le hG
      | _ => exact (hclock.trans (Int.add_zero _)).trans_le hi
    | created => simp [Timely]
    | ended => simp [Timely]

/-- The host is watched: its worker is dead, and it does not stay online for long. -/
structure Watched (host : String) (interval maxAge limit : ℤ) (duration : ℕ)
    (heartbeat : Option DateTime) (b : Backend) : Prop where
  inTurn : InTurn interval maxAge b
  timely : Timely interval duration b
  goes : b.stop = false
  silent : b.sys.Silent host
  row : ∃ row, b.sys.world.hosts.get? host = some row ∧ row.lastHeartbeat = heartbeat ∧
    (row.isOnline = true → Pending host interval maxAge limit duration b)

variable {heartbeat : Option DateTime}

/-- What is pending stays so with a step of the system, or the host goes offline. -/
lemma Pending.sys {a : TestOrch.Act} {s' : Sys} (hi : Pending host interval maxAge limit duration b)
    (hturn : InTurn interval maxAge b) (hprompt : Prompt interval duration b (.sys a))
    (hdead : Dead host b (.sys a)) (hrow : b.sys.world.hosts.get? host = some row)
    (hlimit : ∀ hb ∈ row.lastHeartbeat, hb.instant + maxAge ≤ limit)
    (ha : b.reserved a = false) (hs : TestOrch.step b.sys a = some s') :
    Pending host interval maxAge limit duration { b with sys := s' } ∨
      s'.world.Offline host ∨ row.isOnline = false := by
  cases hloop : b.loop with
  | created =>
    refine .inl ?_
    simp only [Pending, hloop] at hi ⊢
    cases a with
    | tick dt => simp [Prompt, hloop] at hprompt
    | _ => exact ((clock_of_step hs).trans (Int.add_zero _)).trans_le hi
  | waiting since =>
    simp only [Pending, hloop] at hi ⊢
    exact .inl hi
  | ended => simp [Pending, hloop] at hi
  | sweeping p =>
    -- Only a sweep that started past the limit has to find the host.
    simp only [Pending, hloop] at hi ⊢
    cases hlast : b.begun.getLast? with
    | none => exact .inl fun s hs => by cases hs
    | some s =>
      obtain ⟨hle, hfinds⟩ := hi s hlast
      by_cases hlate : limit < s
      · obtain ⟨pc, hp, hpc⟩ := hfinds hlate
        rcases sweep_cases hs hp (ne_kill_of_reserved ha hp) with hp' | ⟨o, pc', rfl, hr, hp'⟩
        · refine .inl fun started hstarted => ?_
          obtain rfl := Option.some.inj hstarted
          exact ⟨hle, fun _ => ⟨pc, hp', hpc⟩⟩
        · cases o with
          | raises => simp [Dead, hp, Proc.sweep?] at hdead
          | ok url =>
            -- Its cutoff is at least its start less the age, so the row is stale to it.
            have hpast : s ≤ b.now := hturn.past s (.inl (List.mem_of_getLast? hlast))
            have hstale : ∀ hb ∈ row.lastHeartbeat, hb.instant < s - maxAge := by
              intro hb hmem
              have hold := hlimit hb hmem
              omega
            rcases hr.finds hpc (Int.sub_le_sub_right hpast _) hrow hstale with hoff | hoff | hpc'
            · exact .inr (.inl hoff)
            · exact .inr (.inr hoff)
            · refine .inl fun started hstarted => ?_
              obtain rfl := Option.some.inj hstarted
              exact ⟨hle, fun _ => ⟨pc', hp', hpc'⟩⟩
      · refine .inl fun started hstarted => ?_
        obtain rfl := Option.some.inj hstarted
        exact ⟨hle, fun h => absurd h hlate⟩

/-- A sweep that is started is there in time. -/
lemma Pending.start (hinterval : 0 ≤ interval)
    (hi : Pending host interval maxAge limit duration b) (htimely : Timely interval duration b)
    (hdue : b.loop = .created ∨ ∃ since, b.loop = .waiting since ∧ since + interval ≤ b.now) :
    Pending host interval maxAge limit duration (b.startSweep maxAge) := by
  intro s hs
  obtain rfl : b.now = s := by simpa [startSweep] using hs
  refine ⟨?_, fun _ => ⟨.start, by simp [startSweep, Launch.proc], trivial⟩⟩
  rcases hdue with hloop | ⟨since, hloop, -⟩
  · simp only [Pending, hloop] at hi
    omega
  · simp only [Pending, hloop] at hi
    simp only [Timely, hloop] at htimely
    omega

/-- While the host is online, a sweep that is over was started before the limit. -/
lemma Pending.finish (hi : Pending host interval maxAge limit duration b)
    (htimely : Timely interval duration b) (hloop : b.loop = .sweeping p)
    (hover : b.sys.sweepOver p = true) :
    Pending host interval maxAge limit duration b.awaitStop := by
  simp only [Pending, awaitStop, hloop] at hi ⊢
  simp only [Timely, hloop] at htimely
  obtain ⟨s, hlast, hle⟩ := htimely
  have hearly : s ≤ limit := by
    by_contra hlate
    obtain ⟨pc, hp, hpc⟩ := (hi s hlast).2 (Int.not_le.mp hlate)
    rw [Sys.sweepOver_of_get hp, hpc.not_over] at hover
    cases hover
  omega

theorem watched_step {a : Act} (hinterval : 0 ≤ interval)
    (hlimit : ∀ hb ∈ heartbeat, hb.instant + maxAge ≤ limit)
    (hi : Watched host interval maxAge limit duration heartbeat b)
    (hprompt : Prompt interval duration b a) (hdead : Dead host b a)
    (h : step interval maxAge b a = some b') :
    Watched host interval maxAge limit duration heartbeat b' := by
  have hturn := inTurn_step hi.inTurn h
  have htimely := timely_step hinterval hi.timely hprompt h
  obtain ⟨row, hrow, hbeat, hpending⟩ := hi.row
  cases Rule.of_step h with
  | start hstop hdue =>
    refine ⟨hturn, htimely, hi.goes, ?_, row, hrow, hbeat, fun honline => ?_⟩
    · exact Pool.all_append_singleton.mpr ⟨hi.silent, trivial⟩
    · exact (hpending honline).start hinterval hi.timely hdue
  | noticed hstop hloop hover =>
    refine ⟨hturn, htimely, hi.goes, hi.silent, row, hrow, hbeat, fun honline => ?_⟩
    exact (hpending honline).finish hi.timely hloop hover
  | cancelled hstop => exact absurd (hi.goes.symm.trans hstop) Bool.false_ne_true
  | shutdown => exact hdead.elim
  | @sys a s' ha hs =>
    have halive : ∀ cpu, a ≠ .launch (.heartbeat host cpu) := by
      rintro cpu rfl
      exact hdead rfl
    -- Behind the loop nobody brings the host back, and a sweep under way goes on to find it.
    obtain ⟨hsilent, hdown⟩ := staysDown_of_step hi.silent hs halive
    obtain ⟨row', hrow', hbeat', honline'⟩ := hdown row hrow
    refine ⟨hturn, htimely, hi.goes, hsilent, row', hrow', hbeat'.trans hbeat, fun honline => ?_⟩
    have hsys := (hpending (honline' honline)).sys hi.inTurn hprompt hdead hrow (hbeat ▸ hlimit) ha
      hs
    rcases hsys with hkept | ⟨row'', hrow'', hoff⟩ | hoff
    · exact hkept
    · obtain rfl := Option.some.inj (hrow'.symm.trans hrow'')
      simp [hoff] at honline
    · simp [hoff] at honline' honline
      simp [honline'] at honline

/-- Some time after the limit a watched host is offline. -/
lemma Watched.offline (hinterval : 0 ≤ interval)
    (hi : Watched host interval maxAge limit duration heartbeat b)
    (hlate : limit + interval + 2 * duration < b.now) : b.sys.world.Offline host := by
  obtain ⟨row, hrow, -, hpending⟩ := hi.row
  refine ⟨row, hrow, Bool.eq_false_iff.mpr fun honline => ?_⟩
  have hpending := hpending honline
  have htimely := hi.timely
  cases hloop : b.loop with
  | created =>
    simp only [Pending, hloop] at hpending
    omega
  | sweeping p =>
    simp only [Pending, hloop] at hpending
    simp only [Timely, hloop] at htimely
    obtain ⟨s, hlast, hle⟩ := htimely
    have hs := (hpending s hlast).1
    omega
  | waiting since =>
    simp only [Pending, hloop] at hpending
    simp only [Timely, hloop] at htimely
    omega
  | ended => simp [Pending, hloop] at hpending

/-- A host whose worker is dead is offline soon. Once its heartbeat is older than the timeout, at
most the interval and twice the time of a sweep pass until its row says so, whatever the other
services do, as long as the sweeps do not raise; and it stays offline. -/
theorem dead_host_detected {sys : Sys} {b₁ : Backend} (hinterval : 0 ≤ interval)
    (h₀ : ∀ p, ¬ sys.Sweeping p)
    (h₁ : Reaches (step interval maxAge) (Prompt interval duration) (launched sys) b₁)
    (hstop : b₁.stop = false) (hsilent : b₁.sys.Silent host)
    (hrow : b₁.sys.world.hosts.get? host = some row)
    (h₂ : Reaches (step interval maxAge) (fun b a => Prompt interval duration b a ∧ Dead host b a)
      b₁ b)
    (hnow : b₁.now ≤ limit) (hlimit : ∀ hb ∈ row.lastHeartbeat, hb.instant + maxAge ≤ limit)
    (hlate : limit + interval + 2 * duration < b.now) : b.sys.world.Offline host := by
  have hturn : InTurn interval maxAge b₁ := inTurn h₀ (h₁.mono fun _ _ _ => trivial)
  have htimely : Timely interval duration b₁ :=
    h₁.invariant trivial fun _ _ _ hi hG hs => timely_step hinterval hi hG hs
  have hpending : Pending host interval maxAge limit duration b₁ := by
    cases hloop : b₁.loop with
    | created => simpa [Pending, hloop] using hnow
    | sweeping p =>
      simp only [Pending, hloop]
      intro s hs
      -- A sweep that has started before the limit need not find the host.
      have hpast := hturn.past s (.inl (List.mem_of_getLast? hs))
      exact ⟨by omega, fun hlate => absurd (hpast.trans hnow) (Int.not_le.mpr hlate)⟩
    | waiting since =>
      have hcounts := hturn.counts
      rw [hloop] at hcounts
      have hpast := hturn.past since (.inr (List.mem_of_getLast? hcounts.2))
      simp only [Pending, hloop]
      omega
    | ended => simp [hturn.ended hloop] at hstop
  have hwatched : Watched host interval maxAge limit duration row.lastHeartbeat b₁ :=
    ⟨hturn, htimely, hstop, hsilent, row, hrow, rfl, fun _ => hpending⟩
  exact (h₂.invariant hwatched fun _ _ _ hi hG hs =>
    watched_step hinterval hlimit hi hG.1 hG.2 hs).offline hinterval hlate

/-- The sweep that is process `p`, in `n` accesses, and the wait after it. -/
def sweepRound (p n : ℕ) : List Act :=
  [.loop] ++ List.replicate n (.sys (.advance p (.ok none))) ++ [.loop, .sys (.tick 30000000)]

/-- The worker of `idleHost` dies at once; it takes five sweeps until its heartbeat is too old. -/
def silentHost : List Act :=
  sweepRound 0 2 ++ sweepRound 1 2 ++ sweepRound 2 2 ++ sweepRound 3 2 ++ sweepRound 4 4

theorem silentHost_detected : ∃ b : Backend, b.now = seconds 150 ∧
    b.sys.world.Offline "h" := by
  obtain ⟨b, hb, hp⟩ := exists_reaches_of_guardedRun (step (seconds 30) (seconds 90))
    (fun b a => Prompt (seconds 30) 1000000 b a ∧ Dead "h" b a) (launched (.single idleHost))
    silentHost (fun b => b.now = seconds 150) (by decide +kernel)
  have hnow : b.now = seconds 150 := of_decide_eq_true hp
  have hrow : (launched (.single idleHost)).sys.world.hosts.get? "h" = some idleHost := rfl
  have hearly : (launched (.single idleHost)).now ≤ seconds 90 := by decide
  refine ⟨b, hnow, ?_⟩
  refine dead_host_detected (by decide) ?_ .refl rfl ?_ hrow hb hearly (by decide) ?_
  · rintro p ⟨maxAge, pc, hp, -⟩
    cases hp
  · exact Pool.all_nil
  · rw [hnow]
    decide

end Backend

end TestOrch
