import TestOrch.System.Submit

/-!
# The other writers of the inventory

`publish_heartbeat` of `worker/tasks.py` and `update_host` of `backend/main.py`, cut at their
accesses to Docker and to the database. Neither takes a row lock.
-/

namespace TestOrch

inductive HeartbeatPc where
  /-- The containers are counted next. -/
  | count
  /-- The Docker query failed; the last known count is read. -/
  | cached
  | read (live : ℤ)
  | stamp (live : ℤ) (loaded : Option WorkerHost)
  | commit (live : ℤ) (loaded : Option WorkerHost) (now : ℤ)
  | done
  deriving DecidableEq

/-- The row that a heartbeat inserts for a new host, before it sets the live values. -/
def registeredHost (hostId : String) : WorkerHost where
  hostId := hostId
  isOnline := false
  activeContainers := 0
  maxContainers := 10
  cpuUtilization := 0
  hardwareTags := ""
  supportsEmulation := false
  lastHeartbeat := none

/-- The assignments of `publish_heartbeat`. -/
def WorkerHost.beat (h : WorkerHost) (live : ℤ) (cpu : ℚ) (now : ℤ) : WorkerHost :=
  { h with
    isOnline := true
    activeContainers := live
    cpuUtilization := cpu
    lastHeartbeat := some (.utc now) }

/-- One step of a heartbeat of `hostId` by process `p`; `cpu` is the load it collected. -/
def heartbeatStep (p : ℕ) (hostId : String) (cpu : ℚ) (w : World) (pc : HeartbeatPc)
    (o : Outcome) : Option (World × HeartbeatPc) :=
  match pc, o with
  | .count, .ok _ => some (w, .read (w.docker hostId).activeTestContainerCount)
  | .count, .raises => some (w, .cached)
  | .cached, .ok _ =>
    some (w, .read (((w.hosts.get? hostId).map WorkerHost.activeContainers).getD 0))
  | .read live, .ok _ => some (w, .stamp live (w.hosts.get? hostId))
  | .stamp live loaded, .ok _ => some (w, .commit live loaded w.clock)
  | .commit live (some loaded) now, .ok _ =>
    (w.commitHost p hostId loaded (loaded.beat live cpu now)).map fun w' => (w', .done)
  | .commit live none now, .ok _ =>
    (w.insertHost p ((registeredHost hostId).beat live cpu now)).map fun w' => (w', .done)
  | .done, _ => none
  | _, .raises => some (w, .done)

inductive HeartbeatRule (p : ℕ) (hostId : String) (cpu : ℚ) (w : World) :
    HeartbeatPc → Outcome → World → HeartbeatPc → Prop
  | count {url} : HeartbeatRule p hostId cpu w .count (.ok url) w
      (.read (w.docker hostId).activeTestContainerCount)
  | countFails : HeartbeatRule p hostId cpu w .count .raises w .cached
  | cached {url} : HeartbeatRule p hostId cpu w .cached (.ok url) w
      (.read (((w.hosts.get? hostId).map WorkerHost.activeContainers).getD 0))
  | read {url live} :
      HeartbeatRule p hostId cpu w (.read live) (.ok url) w (.stamp live (w.hosts.get? hostId))
  | stamp {url live loaded} :
      HeartbeatRule p hostId cpu w (.stamp live loaded) (.ok url) w (.commit live loaded w.clock)
  | update {url live loaded now w'}
      (h : w.commitHost p hostId loaded (loaded.beat live cpu now) = some w') :
      HeartbeatRule p hostId cpu w (.commit live (some loaded) now) (.ok url) w' .done
  | register {url live now w'}
      (h : w.insertHost p ((registeredHost hostId).beat live cpu now) = some w') :
      HeartbeatRule p hostId cpu w (.commit live none now) (.ok url) w' .done
  | fails {pc} (hpc : pc ≠ .count) (hdone : pc ≠ .done) :
      HeartbeatRule p hostId cpu w pc .raises w .done

inductive UpdatePc where
  | read
  | commit (loaded : WorkerHost)
  | done
  deriving DecidableEq

structure HostForm where
  hostId : String
  hardwareTags : String
  supportsEmulation : Bool
  maxContainers : ℤ

/-- The assignments of `update_host`. -/
def HostForm.apply (form : HostForm) (h : WorkerHost) : WorkerHost :=
  { h with
    hardwareTags := ",".intercalate (commaPieces form.hardwareTags)
    supportsEmulation := form.supportsEmulation
    maxContainers := max 1 form.maxContainers }

def updateStep (p : ℕ) (form : HostForm) (w : World) (pc : UpdatePc) (o : Outcome) :
    Option (World × UpdatePc) :=
  match pc, o with
  | .read, .ok _ =>
    match w.hosts.get? form.hostId with
    | some row => some (w, .commit row)
    | none => some (w, .done)
  | .commit loaded, .ok _ =>
    (w.commitHost p form.hostId loaded (form.apply loaded)).map fun w' => (w', .done)
  | .done, _ => none
  | _, .raises => some (w, .done)

inductive UpdateRule (p : ℕ) (form : HostForm) (w : World) :
    UpdatePc → Outcome → World → UpdatePc → Prop
  | read {url row} (h : w.hosts.get? form.hostId = some row) :
      UpdateRule p form w .read (.ok url) w (.commit row)
  | readNone {url} (h : w.hosts.get? form.hostId = none) :
      UpdateRule p form w .read (.ok url) w .done
  | commit {url loaded w'} (h : w.commitHost p form.hostId loaded (form.apply loaded) = some w') :
      UpdateRule p form w (.commit loaded) (.ok url) w' .done
  | fails {pc} (hpc : pc ≠ .done) : UpdateRule p form w pc .raises w .done

variable {p : ℕ} {hostId : String} {cpu : ℚ} {form : HostForm} {w w' : World} {o : Outcome}

/-- Every step of a heartbeat is an instance of a rule. -/
theorem HeartbeatRule.of_heartbeatStep {pc pc' : HeartbeatPc}
    (h : heartbeatStep p hostId cpu w pc o = some (w', pc')) :
    HeartbeatRule p hostId cpu w pc o w' pc' := by
  cases pc with
  | count =>
    cases o <;> (obtain ⟨rfl, rfl⟩ := Prod.mk.inj (Option.some.inj h))
    · exact .count
    · exact .countFails
  | cached =>
    cases o <;> (obtain ⟨rfl, rfl⟩ := Prod.mk.inj (Option.some.inj h))
    · exact .cached
    · exact .fails (by simp) (by simp)
  | read live =>
    cases o <;> (obtain ⟨rfl, rfl⟩ := Prod.mk.inj (Option.some.inj h))
    · exact .read
    · exact .fails (by simp) (by simp)
  | stamp live loaded =>
    cases o <;> (obtain ⟨rfl, rfl⟩ := Prod.mk.inj (Option.some.inj h))
    · exact .stamp
    · exact .fails (by simp) (by simp)
  | commit live loaded now =>
    cases o with
    | ok url =>
      cases loaded with
      | none =>
        obtain ⟨w'', hw, heq⟩ := Option.map_eq_some_iff.mp h
        obtain ⟨rfl, rfl⟩ := Prod.mk.inj heq
        exact .register hw
      | some loaded =>
        obtain ⟨w'', hw, heq⟩ := Option.map_eq_some_iff.mp h
        obtain ⟨rfl, rfl⟩ := Prod.mk.inj heq
        exact .update hw
    | raises =>
      cases loaded <;> (obtain ⟨rfl, rfl⟩ := Prod.mk.inj (Option.some.inj h)) <;>
        exact .fails (by simp) (by simp)
  | done => cases h

/-- Every step of `update_host` is an instance of a rule. -/
theorem UpdateRule.of_updateStep {pc pc' : UpdatePc}
    (h : updateStep p form w pc o = some (w', pc')) : UpdateRule p form w pc o w' pc' := by
  cases pc with
  | read =>
    cases o with
    | ok url =>
      cases hrow : w.hosts.get? form.hostId with
      | none =>
        simp only [updateStep, hrow, Option.some.injEq, Prod.mk.injEq] at h
        obtain ⟨rfl, rfl⟩ := h
        exact .readNone hrow
      | some row =>
        simp only [updateStep, hrow, Option.some.injEq, Prod.mk.injEq] at h
        obtain ⟨rfl, rfl⟩ := h
        exact .read hrow
    | raises =>
      obtain ⟨rfl, rfl⟩ := Prod.mk.inj (Option.some.inj h)
      exact .fails (by simp)
  | commit loaded =>
    cases o with
    | ok url =>
      obtain ⟨w'', hw, heq⟩ := Option.map_eq_some_iff.mp h
      obtain ⟨rfl, rfl⟩ := Prod.mk.inj heq
      exact .commit hw
    | raises =>
      obtain ⟨rfl, rfl⟩ := Prod.mk.inj (Option.some.inj h)
      exact .fails (by simp)
  | done => cases h

end TestOrch
