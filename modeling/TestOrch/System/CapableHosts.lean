import TestOrch.System.AuditTrail
import TestOrch.System.Placement

/-!
# Tests run on capable hosts

The tags and the emulation support of a host are set by administrators only. As long as they are not
edited, a bundle that was placed on a host finds there, whenever it is executed, what it asked for.
-/

namespace TestOrch

open Transition

structure Capable (bundle : TestBundleRequest) (h : WorkerHost) : Prop where
  emulation : bundle.requiresEmulation = true → h.supportsEmulation = true
  tags : ∀ t ∈ bundle.requiredHwTags, t ∈ h.tagSet

instance (bundle : TestBundleRequest) (h : WorkerHost) : Decidable (Capable bundle h) :=
  decidable_of_iff ((bundle.requiresEmulation = true → h.supportsEmulation = true) ∧
    ∀ t ∈ bundle.requiredHwTags, t ∈ h.tagSet) ⟨fun h => ⟨h.1, h.2⟩, fun h => ⟨h.1, h.2⟩⟩

def World.Capable (w : World) (bundle : TestBundleRequest) (hostId : String) : Prop :=
  ∃ row, w.hosts.get? hostId = some row ∧ TestOrch.Capable bundle row

/-- Everything runs but `update_host`. -/
def Unedited : Sys → Act → Prop := Among [.submit, .task, .heartbeat, .sweep, .reap]

instance (s : Sys) (a : Act) : Decidable (Unedited s a) :=
  inferInstanceAs (Decidable (Among _ s a))

/-- The hosts stay, with their hardware. -/
def World.KeepsHardware (w w' : World) : Prop :=
  ∀ h row, w.hosts.get? h = some row → ∃ row', w'.hosts.get? h = some row' ∧
    row'.hardwareTags = row.hardwareTags ∧ row'.supportsEmulation = row.supportsEmulation

variable {s s' : Sys} {w w' : World} {p : ℕ} {o : Outcome} {proc proc' : Proc} {hostId : String}
  {bundle : TestBundleRequest}

lemma World.Capable.keep (h : w.Capable bundle hostId) (hk : w.KeepsHardware w') :
    w'.Capable bundle hostId := by
  obtain ⟨row, hrow, hem, htags⟩ := h
  obtain ⟨row', hrow', htags', hem'⟩ := hk _ row hrow
  refine ⟨row', hrow', fun h => hem' ▸ hem h, fun t ht => ?_⟩
  rw [WorkerHost.tagSet, htags']
  exact htags t ht

namespace World.KeepsHardware

lemma of_eq (h : w'.hosts = w.hosts) : w.KeepsHardware w' :=
  fun _ row hrow => ⟨row, h ▸ hrow, rfl, rfl⟩

/-- A commit of a row in which the hardware was not set. -/
lemma commitHost {loaded new : WorkerHost} (hw : w.commitHost p hostId loaded new = some w')
    (htags : new.hardwareTags = loaded.hardwareTags)
    (hem : new.supportsEmulation = loaded.supportsEmulation) : w.KeepsHardware w' := by
  obtain ⟨-, hget⟩ := World.get?_of_commitHost hw
  intro h row hrow
  rw [hget, hrow]
  split_ifs
  · exact ⟨_, rfl, by simp [WorkerHost.flush, htags], by simp [WorkerHost.flush, hem]⟩
  · exact ⟨row, rfl, rfl, rfl⟩

lemma insertHost {row : WorkerHost} (hw : w.insertHost p row = some w') : w.KeepsHardware w' := by
  obtain ⟨-, hnone, hget⟩ := World.get?_of_insertHost hw
  intro h stored hstored
  have hne : h ≠ row.hostId := by
    rintro rfl
    simp [hnone] at hstored
  exact ⟨stored, by rw [hget, if_neg hne, hstored], rfl, rfl⟩

lemma commitOffline (hostIds : List String) : w.KeepsHardware (w.commitOffline hostIds) := by
  intro h row hrow
  rw [World.commitOffline, get?_markOffline, hrow]
  split_ifs
  · exact ⟨_, rfl, rfl, rfl⟩
  · exact ⟨row, rfl, rfl, rfl⟩

end World.KeepsHardware

/-! ### Who can change the hardware -/

lemma SubmitRule.keepsHardware {pc pc' : SubmitPc} (h : SubmitRule p bundle w pc o w' pc') :
    w.KeepsHardware w' := by
  cases h with
  | reserve hw => exact .commitHost hw rfl rfl
  | undo _ hw => exact .commitHost hw rfl rfl
  | _ => exact .of_eq rfl

lemma TaskRule.keepsHardware {t t' : Task} (h : TaskRule p w t o w' t') : w.KeepsHardware w' := by
  cases h with
  | decrement hpc hw => exact .commitHost hw rfl rfl
  | _ => exact .of_eq rfl

lemma HeartbeatRule.keepsHardware {cpu : ℚ} {pc pc' : HeartbeatPc}
    (h : HeartbeatRule p hostId cpu w pc o w' pc') : w.KeepsHardware w' := by
  cases h with
  | update hw => exact .commitHost hw rfl rfl
  | register hw => exact .insertHost hw
  | _ => exact .of_eq rfl

lemma SweepRule.keepsHardware {maxAge : ℤ} {pc pc' : SweepPc}
    (h : SweepRule p maxAge w pc o w' pc') : w.KeepsHardware w' := by
  cases h with
  | mark => exact .commitOffline _
  | _ => exact .of_eq rfl

lemma ReapRule.keepsHardware {pc pc' : ReapPc} (h : ReapRule hostId w pc o w' pc') :
    w.KeepsHardware w' := by
  cases h <;> exact .of_eq rfl

/-! ### Bundles on their way -/

/-- A submission with a slot has it on a capable host, whose queue it writes to. -/
def Proc.WellPlaced (w : World) : Proc → Prop
  | .submit bundle (.reserve chosen queue) | .submit bundle (.send chosen queue) =>
    queueNameFor chosen.hostId = .ok queue ∧ w.Capable bundle chosen.hostId
  | _ => True

/-- Every message is for a capable host. -/
structure WellPlaced (s : Sys) : Prop where
  messages : ∀ m ∈ s.world.queue ++ s.world.delivered, ∀ h, consumes h m = true →
    s.world.Capable m.bundle h
  procs : Pool.All s.procs fun _ proc => proc.WellPlaced s.world

lemma Proc.WellPlaced.keep (h : proc.WellPlaced w) (hk : w.KeepsHardware w') :
    proc.WellPlaced w' := by
  cases proc with
  | submit bundle pc =>
    cases pc with
    | reserve chosen queue | send chosen queue => exact ⟨h.1, h.2.keep hk⟩
    | _ => trivial
  | _ => trivial

namespace WellPlaced

/-- One process moved and sent nothing. -/
lemma set (hi : WellPlaced s) (hp : s.procs[p]? = some proc) (hk : s.world.KeepsHardware w')
    (hq : w'.queue = s.world.queue) (hd : w'.delivered = s.world.delivered)
    (hproc : proc'.WellPlaced w') : WellPlaced ⟨w', s.procs.set p proc'⟩ where
  messages m hm h hc := (hi.messages m (by rwa [hq, hd] at hm) h hc).keep hk
  procs := (Pool.all_set hp).mpr ⟨hproc, fun j other _ hj => (hi.procs j other hj).keep hk⟩

/-- Processes started; messages may have been handed out. -/
lemma spawn (hi : WellPlaced s) (new : Proc) (hh : w'.hosts = s.world.hosts)
    (hm : ∀ m ∈ w'.queue ++ w'.delivered, m ∈ s.world.queue ++ s.world.delivered)
    (hnew : new.WellPlaced w') : WellPlaced ⟨w', s.procs ++ [new]⟩ where
  messages m hmem h hc := (hi.messages m (hm m hmem) h hc).keep (.of_eq hh)
  procs := Pool.all_append_singleton.mpr
    ⟨fun j other hj => (hi.procs j other hj).keep (.of_eq hh), hnew⟩

/-- A submission moved. -/
lemma submit {pc pc' : SubmitPc} (hi : WellPlaced s)
    (hp : s.procs[p]? = some (.submit bundle pc))
    (h : SubmitRule p bundle s.world pc o w' pc') :
    WellPlaced ⟨w', s.procs.set p (.submit bundle pc')⟩ := by
  have hk := h.keepsHardware
  have hproc := hi.procs p _ hp
  cases h with
  | select hfree hc =>
    obtain ⟨hmem, -, hqueue, -⟩ := chooseHost_spec hc
    have he := (placement_of_chooseHost s.world.hosts.nodup hc).eligible
    exact hi.set hp hk rfl rfl ⟨hqueue, _, Table.get?_of_mem hmem, he.emulation, he.tags⟩
  | reserve hw =>
    obtain ⟨-, rfl⟩ := World.commitHost_eq_some hw
    exact hi.set hp hk rfl rfl ⟨hproc.1, hproc.2.keep hk⟩
  | undo hpos hw =>
    obtain ⟨-, rfl⟩ := World.commitHost_eq_some hw
    exact hi.set hp hk rfl rfl trivial
  | @send url chosen queue =>
    refine ⟨fun m hm h hc => ?_, (Pool.all_set hp).mpr
      ⟨trivial, fun j other _ hj => (hi.procs j other hj).keep hk⟩⟩
    simp only [List.mem_append, List.mem_singleton] at hm
    rcases hm with (hm | rfl) | hm
    · exact hi.messages m (List.mem_append_left _ hm) h hc
    · have hqueue : queueNameFor h = .ok queue := by
        simp only [consumes] at hc
        split at hc
        · simp_all
        · cases hc
      rw [queueNameFor_inj hqueue hproc.1]
      exact hproc.2
    · exact hi.messages m (List.mem_append_right _ hm) h hc
  | _ => exact hi.set hp hk rfl rfl trivial

end WellPlaced

/-- No step but those of `update_host` takes a bundle to a host without its hardware. -/
theorem wellPlaced_step {a : Act} (hi : WellPlaced s) (hG : Unedited s a)
    (h : step s a = some s') : WellPlaced s' := by
  cases SysRule.of_step h with
  | @launch l =>
    refine hi.spawn _ rfl (fun _ => id) ?_
    cases l <;> trivial
  | deliver hm hq =>
    refine hi.spawn _ ?_ (fun m' hm' => ?_) trivial
    · rfl
    · exact (World.mem_handOut hm).mp hm'
  | redeliver hm hq => exact hi.spawn _ rfl (fun _ => id) trivial
  | submit hp hr => exact hi.submit hp hr
  | task hp hr =>
    have hk := hr.keepsHardware
    cases hr with
    | decrement hpc hw =>
      obtain ⟨-, rfl⟩ := World.commitHost_eq_some hw
      exact hi.set hp hk rfl rfl trivial
    | _ => exact hi.set hp hk rfl rfl trivial
  | heartbeat hp hr =>
    have hk := hr.keepsHardware
    cases hr with
    | update hw =>
      obtain ⟨-, rfl⟩ := World.commitHost_eq_some hw
      exact hi.set hp hk rfl rfl trivial
    | register hw =>
      obtain ⟨t, -, rfl⟩ := Option.map_eq_some_iff.mp hw
      exact hi.set hp hk rfl rfl trivial
    | _ => exact hi.set hp hk rfl rfl trivial
  | update hp hr => simpa [Unedited, Among, Proc.kind] using hG _ hp
  | sweep hp hr =>
    have hk := hr.keepsHardware
    cases hr <;> exact hi.set hp hk rfl rfl trivial
  | reap hp hr =>
    have hk := hr.keepsHardware
    cases hr <;> exact hi.set hp hk rfl rfl trivial
  | kill hp => exact hi.set hp (.of_eq rfl) rfl rfl trivial
  | exit hc hrun => exact ⟨hi.messages, hi.procs⟩
  | tick => exact ⟨hi.messages, hi.procs⟩

/-- In every run without edits of hosts, each queued or delivered bundle and each execution, dead or
alive, is for a host that has the hardware the bundle asks for. -/
theorem host_capable {s₀ : Sys} (h₀ : s₀.Unused) (h : Reaches step Unedited s₀ s) :
    (∀ m ∈ s.world.queue ++ s.world.delivered, ∀ hostId, consumes hostId m = true →
      s.world.Capable m.bundle hostId) ∧
    ∀ proc ∈ s.procs, ∀ t, proc.exec? = some t → s.world.Capable t.bundle t.host := by
  have hstart : WellPlaced s₀ := by
    constructor
    · simp [h₀.queue, h₀.delivered]
    · simp [h₀.procs]
  have hi : WellPlaced s := h.invariant hstart fun _ _ _ hi hG hs => wellPlaced_step hi hG hs
  have ha : Audited (fun _ => True) s := h.invariant (.of_unused h₀) fun _ _ _ hi _ hs =>
    audited_step hi (fun _ _ => trivial) hs
  refine ⟨hi.messages, fun proc hproc t ht => ?_⟩
  obtain ⟨j, hj⟩ := List.mem_iff_getElem?.mp hproc
  obtain ⟨m, hm, hbundle, hc⟩ := (ha.procs j proc hj).sent ht
  exact hbundle ▸ hi.messages m hm t.host hc

/-- A host with a device, and a bundle that asks for it. -/
def deviceHost : WorkerHost := { idleHost with hardwareTags := "gpu,dut" }

def deviceBundle : TestBundleRequest := { sampleBundle with requiredHwTags := ["dut"] }

/-- The bundle is executed on the host. -/
theorem deviceHost_capable : ∃ s : Sys, ∃ proc ∈ s.procs, ∃ t, proc.exec? = some t ∧
    t.bundle.requiredHwTags = ["dut"] ∧ s.world.Capable t.bundle t.host := by
  obtain ⟨s, hs, hp⟩ := exists_reaches_of_guardedRun step Unedited (.single deviceHost)
    ([.launch (.submit deviceBundle)] ++ List.replicate 4 (.advance 0 (.ok none)) ++
      [.deliver 0 "h", .advance 1 (.ok none)])
    (fun s => s.procs.any fun proc => proc.exec?.any fun t => t.bundle.requiredHwTags = ["dut"])
    (by decide +kernel)
  simp only [List.any_eq_true, Option.any_eq_true, decide_eq_true_eq] at hp
  obtain ⟨proc, hproc, t, ht, htags⟩ := hp
  exact ⟨s, proc, hproc, t, ht, htags, (host_capable (.single _) hs).2 proc hproc t ht⟩

end TestOrch
