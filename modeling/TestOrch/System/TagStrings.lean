import TestOrch.Shared.BundleDecoding
import TestOrch.Shared.PyValue
import TestOrch.System.Inventory
import TestOrch.System.Submit

/-!
# Tag strings (`submit_test` and `update_host` of `backend/main.py`)

The tags of a bundle are read from a form field, and so are those of a host; the latter are stored
as a string and read again by `tag_set`. All three readings split at commas, strip and leave out
what is empty. Storing the joined pieces loses nothing, so the filter compares the pieces of the two
form fields (`tags_agree`).
-/

namespace TestOrch

structure SubmitForm where
  runnerType : String
  frameworkImage : String
  targetDut : String
  requiredHwTags : String
  requiresEmulation : Bool

/-- The bundle that `submit_test` builds for a user, under a new test id. -/
def SubmitForm.bundle (form : SubmitForm) (testId : String) (userId : ℤ) :
    Except PyError TestBundleRequest :=
  let tags := commaPieces form.requiredHwTags
  let runnerVariables :=
    if form.targetDut ≠ "" then [(.str "target_dut", .str form.targetDut)] else []
  TestBundleRequest.new (.str testId) (.int userId) (.str form.runnerType)
    (.str form.frameworkImage) (.list (tags.map .str)) (.bool form.requiresEmulation) .none
    (.dict runnerVariables)

/-- The `normalized` tags of `update_host`. -/
def normalizedTags (hardwareTags : String) : String := ",".intercalate (commaPieces hardwareTags)

/-- The tag clause of `_passes_filter`. -/
def passesTags (host : WorkerHost) (bundle : TestBundleRequest) : Bool :=
  !(!bundle.requiredHwTags.isEmpty &&
    !(bundle.requiredHwTags.all fun t => host.tagSet.contains t))

/-! ### Both sides -/

/-- Stored tags are read as the pieces they were joined from. -/
lemma commaPieces_normalizedTags (s : String) : commaPieces (normalizedTags s) = commaPieces s := by
  have hjoin : (normalizedTags s).toList =
      [','].intercalate (Separated.pieces ',' isSpace s.toList) := by
    rw [normalizedTags, String.toList_intercalate, commaPieces_eq, List.map_map]
    congr 1
    simp [Function.comp_def]
  rw [commaPieces_eq, hjoin, Separated.pieces_join, ← commaPieces_eq]

lemma requiredHwTags_bundle {form : SubmitForm} {testId : String} {userId : ℤ}
    {bundle : TestBundleRequest} (h : form.bundle testId userId = .ok bundle) :
    bundle.requiredHwTags = commaPieces form.requiredHwTags := by
  have hfields := congrArg TestBundleRequest.Fields.requiredHwTags
    (TestBundleRequest.construct_eq_ok (f := ⟨_, _, _, _, _, _, _, _⟩).mp h)
  have hstr : Function.Injective PyValue.str := fun _ _ => PyValue.str.inj
  exact (List.map_injective_iff.mpr hstr (PyValue.list.inj hfields)).symm

lemma passesTags_iff {host : WorkerHost} {bundle : TestBundleRequest} :
    passesTags host bundle = true ↔ ∀ t ∈ bundle.requiredHwTags, t ∈ host.tagSet := by
  cases htags : bundle.requiredHwTags <;> simp [passesTags, htags]

/-- The filter is its tag clause and the checks that do not look at tags. -/
lemma passesFilter_eq (host : WorkerHost) (bundle : TestBundleRequest) :
    passesFilter host bundle = (host.isOnline &&
      decide (host.activeContainers < host.maxContainers) &&
      (!bundle.requiresEmulation || host.supportsEmulation) && passesTags host bundle) := by
  rw [Bool.eq_iff_iff, passesFilter_iff]
  cases bundle.requiresEmulation <;> simp [passesTags_iff, and_assoc]

/-- The filter decides on a host that was updated as it would on the field that was filled in. -/
theorem passesFilter_apply (update : HostForm) (stored : WorkerHost) (bundle : TestBundleRequest) :
    passesFilter (update.apply stored) bundle =
      passesFilter { update.apply stored with hardwareTags := update.hardwareTags } bundle := by
  have htags : passesTags (update.apply stored) bundle =
      passesTags { update.apply stored with hardwareTags := update.hardwareTags } bundle := by
    rw [Bool.eq_iff_iff, passesTags_iff, passesTags_iff]
    have hsame : (update.apply stored).tagSet = commaPieces update.hardwareTags :=
      commaPieces_normalizedTags _
    rw [hsame]
    rfl
  rw [passesFilter_eq, passesFilter_eq, htags]

/-- A bundle from the one form passes the tag clause on a host with the tags of the other form
exactly if every piece of its field is a piece of the other field. Normalising twice is normalising
once, and the stored tags are those of the field itself. -/
theorem tags_agree {form : SubmitForm} {testId : String} {userId : ℤ} {bundle : TestBundleRequest}
    {update : HostForm} {stored host : WorkerHost}
    (hbundle : form.bundle testId userId = .ok bundle)
    (hhost : host.hardwareTags = (update.apply stored).hardwareTags) :
    (passesTags host bundle = true ↔ ∀ p ∈ splitComma form.requiredHwTags, strip p ≠ "" →
      ∃ q ∈ splitComma update.hardwareTags, strip q ≠ "" ∧ strip q = strip p) ∧
    normalizedTags (normalizedTags update.hardwareTags) = normalizedTags update.hardwareTags ∧
    host.tagSet = { host with hardwareTags := update.hardwareTags }.tagSet := by
  have hnormal : host.hardwareTags = normalizedTags update.hardwareTags := hhost
  have htags : host.tagSet = commaPieces update.hardwareTags := by
    rw [WorkerHost.tagSet, hnormal, commaPieces_normalizedTags]
  refine ⟨?_, ?_, htags⟩
  · rw [passesTags_iff, htags, requiredHwTags_bundle hbundle]
    constructor
    · intro h p hp hne
      obtain ⟨⟨q, hq, heq⟩, -⟩ := mem_commaPieces.mp (h _ (mem_commaPieces.mpr ⟨⟨p, hp, rfl⟩, hne⟩))
      exact ⟨q, hq, heq.symm ▸ hne, heq⟩
    · intro h t ht
      obtain ⟨⟨p, hp, rfl⟩, hne⟩ := mem_commaPieces.mp ht
      obtain ⟨q, hq, -, heq⟩ := h p hp hne
      exact mem_commaPieces.mpr ⟨⟨q, hq, heq⟩, hne⟩
  · rw [normalizedTags, commaPieces_normalizedTags, ← normalizedTags]

/-- A submission with tags in need of stripping. -/
def taggedForm : SubmitForm := ⟨"pytest", "img", "", " gpu ,, arm", false⟩

/-- The tags of the host are given in another order, with another one between them. -/
def taggedUpdate : HostForm := ⟨"h", "arm,\tx86,gpu,", false, 1⟩

theorem taggedForm_agrees : passesTags (taggedUpdate.apply (registeredHost "h"))
    { sampleBundle with requiredHwTags := ["gpu", "arm"] } = true :=
  (@tags_agree taggedForm "t" 1 _ taggedUpdate (registeredHost "h") _ rfl rfl).1.mpr (by decide)

end TestOrch
