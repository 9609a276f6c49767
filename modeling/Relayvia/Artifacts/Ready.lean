import Relayvia.Artifacts.Upload
import Relayvia.Workspaces.Processes

/-!
# Ready artifacts

Uploads of one artifact share its object and its row.  When they do not overlap, a
ready artifact stays ready with its content.
-/

namespace Relayvia

variable {env : Env} {maximum : ℕ} {s s' : UploadWorld}

/-- The upload is between the start of its save and its commit. -/
def Upload.saves (u : Upload) : Bool :=
  match u.phase with
  | .saving .. | .saved _ => true
  | _ => false

/-- No upload starts to save or deletes the object while another one of the artifact is
between the start of its save and its commit, none is finalised while another one is in
progress, and the refresh after the commit succeeds. -/
def UploadStep.Exclusive (s : UploadWorld) : UploadStep → Prop
  | .openFile uid | .put uid | .delete uid _ => ∀ u, s.uploads uid = some u →
      ∀ uid' u', uid' ≠ uid → s.uploads uid' = some u' → u'.artifactId = u.artifactId →
        u'.saves = false
  | .finalize uid => ∀ u, s.uploads uid = some u →
      ∀ uid' u', uid' ≠ uid → s.uploads uid' = some u' → u'.artifactId ≠ u.artifactId
  | .interrupt uid _ => ∀ u, s.uploads uid = some u → u.phase ≠ .finalized
  | _ => True

/-! ## The invariant -/

/-- What a save has written so far. -/
structure UploadSafe (store : FileStore String) (u : Upload) : Prop where
  saving : ∀ content inode written, u.phase = .saving content inode written →
    store.paths u.artifactId = some inode ∧ written ≤ content.length ∧
      store.content u.artifactId = some (content.take written)
  saved : ∀ size, u.phase = .saved size →
    ∃ bytes, store.content u.artifactId = some bytes ∧ bytes.length = size

theorem UploadSafe.of_idle {store : FileStore String} {u : Upload} (h : u.saves = false) :
    UploadSafe store u := by
  refine ⟨fun _ _ _ hphase ↦ ?_, fun _ hphase ↦ ?_⟩
  all_goals
    rw [Upload.saves, hphase] at h
    cases h

theorem UploadSafe.sameAt {store store' : FileStore String} {u : Upload} (h : UploadSafe store u)
    (hsame : FileStore.SameAt store store' u.artifactId) : UploadSafe store' u := by
  refine ⟨fun content inode written hphase ↦ ?_, fun size hphase ↦ ?_⟩
  · rw [hsame.paths, hsame.content]
    exact h.saving content inode written hphase
  · rw [hsame.content]
    exact h.saved size hphase

structure UploadsSafe (s : UploadWorld) : Prop where
  wf : s.store.Wf
  ids : (s.artifacts.map Artifact.id).Nodup
  safe : ∀ uid u, s.uploads uid = some u → UploadSafe s.store u
  single : ∀ uid uid' u u', s.uploads uid = some u → s.uploads uid' = some u' →
    u'.artifactId = u.artifactId → u.saves = true → u'.saves = true → uid' = uid
  ready : ∀ a ∈ s.artifacts, a.isReady = true →
    (∀ uid u, s.uploads uid = some u → u.artifactId = a.id → u.phase = .finalized) ∧
      ∃ bytes, s.store.content a.id = some bytes ∧ a.size = some bytes.length

/-- Ready artifacts stay as they are. -/
def ReadyKept (s s' : UploadWorld) : Prop :=
  ∀ a ∈ s.artifacts, a.isReady = true →
    a ∈ s'.artifacts ∧ s'.store.content a.id = s.store.content a.id

/-- An upload that changes the object of its artifact, goes on or ends. -/
structure Advance (s : UploadWorld) (uid : ℕ) (key : String) (q : Option Upload)
    (store : FileStore String) : Prop where
  wf : store.Wf
  other : ∀ k, k ≠ key → FileStore.SameAt s.store store k
  alone : FileStore.SameAt s.store store key ∨
    ∀ uid' u', uid' ≠ uid → s.uploads uid' = some u' → u'.artifactId = key → u'.saves = false
  safe : ∀ u, q = some u → u.artifactId = key ∧ UploadSafe store u
  single : ∀ u, q = some u → u.saves = true →
    ∀ uid' u', uid' ≠ uid → s.uploads uid' = some u' → u'.artifactId = key → u'.saves = false

namespace Advance

variable {uid : ℕ} {key : String} {q : Option Upload} {store : FileStore String}

theorem uploads_set {uid' : ℕ} {u : Upload} {t : UploadWorld}
    (h : (t.setUpload uid q).uploads uid' = some u) :
    uid' = uid ∧ q = some u ∨ uid' ≠ uid ∧ t.uploads uid' = some u := by
  have happly : (t.setUpload uid q).uploads uid' = if uid' = uid then q else t.uploads uid' :=
    Function.update_apply t.uploads uid q uid'
  rw [happly] at h
  split at h
  · next heq => exact .inl ⟨heq, h⟩
  · next hne => exact .inr ⟨hne, h⟩

/-- The uploads after the step, whatever happens to the rows. -/
theorem uploads (h : UploadsSafe s) (hadvance : Advance s uid key q store)
    {artifacts : List Artifact} (hids : (artifacts.map Artifact.id).Nodup)
    (hready : ∀ a ∈ artifacts, a.isReady = true →
      (∀ uid' u, uid' ≠ uid → s.uploads uid' = some u → u.artifactId = a.id →
        u.phase = .finalized) ∧
      (∀ u, q = some u → u.artifactId = a.id → u.phase = .finalized) ∧
      ∃ bytes, store.content a.id = some bytes ∧ a.size = some bytes.length) :
    UploadsSafe ({ s with artifacts := artifacts, store := store }.setUpload uid q) := by
  refine ⟨hadvance.wf, hids, fun uid' u hu ↦ ?_, fun uid₁ uid₂ u₁ u₂ hu₁ hu₂ hkey hs₁ hs₂ ↦ ?_,
    fun a ha hr ↦ ?_⟩
  · rcases uploads_set hu with ⟨-, hq⟩ | ⟨hne, hold⟩
    · exact (hadvance.safe u hq).2
    · by_cases hkey : u.artifactId = key
      · rcases hadvance.alone with hsame | hidle
        · exact (h.safe uid' u hold).sameAt (hkey ▸ hsame)
        · exact .of_idle (hidle uid' u hne hold hkey)
      · exact (h.safe uid' u hold).sameAt (hadvance.other _ hkey)
  · rcases uploads_set hu₁ with ⟨rfl, hq₁⟩ | ⟨hne₁, hold₁⟩
    · rcases uploads_set hu₂ with ⟨rfl, -⟩ | ⟨hne₂, hold₂⟩
      · rfl
      · have hidle := hadvance.single u₁ hq₁ hs₁ uid₂ u₂ hne₂ hold₂
          (hkey.trans (hadvance.safe u₁ hq₁).1)
        rw [hs₂] at hidle
        cases hidle
    · rcases uploads_set hu₂ with ⟨rfl, hq₂⟩ | ⟨-, hold₂⟩
      · have hidle := hadvance.single u₂ hq₂ hs₂ uid₁ u₁ hne₁ hold₁
          (hkey.symm.trans (hadvance.safe u₂ hq₂).1)
        rw [hs₁] at hidle
        cases hidle
      · exact h.single uid₁ uid₂ u₁ u₂ hold₁ hold₂ hkey hs₁ hs₂
  · obtain ⟨hothers, hown, hbytes⟩ := hready a ha hr
    refine ⟨fun uid' u hu hkey ↦ ?_, hbytes⟩
    rcases uploads_set hu with ⟨-, hq⟩ | ⟨hne, hold⟩
    · exact hown u hq hkey
    · exact hothers uid' u hne hold hkey

/-- A step of an upload that is not finalised leaves the rows alone, so its artifact is
not ready. -/
theorem open_safe (h : UploadsSafe s) (hadvance : Advance s uid key q store) {u : Upload}
    (hu : s.uploads uid = some u) (hkey : u.artifactId = key) (hphase : u.phase ≠ .finalized) :
    UploadsSafe ({ s with store := store }.setUpload uid q) ∧
      ReadyKept s ({ s with store := store }.setUpload uid q) := by
  have hne : ∀ a ∈ s.artifacts, a.isReady = true → a.id ≠ key := fun a ha hr hid ↦
    hphase ((h.ready a ha hr).1 uid u hu (hkey.trans hid.symm))
  have hsame : ∀ a ∈ s.artifacts, a.isReady = true → store.content a.id = s.store.content a.id :=
    fun a ha hr ↦ (hadvance.other a.id (hne a ha hr)).content
  refine ⟨uploads h hadvance h.ids fun a ha hr ↦ ⟨fun uid' u' _ hu' hid ↦
    (h.ready a ha hr).1 uid' u' hu' hid, fun u' hq hid ↦ ?_, ?_⟩, fun a ha hr ↦ ⟨ha, hsame a ha hr⟩⟩
  · exact absurd (hid.symm.trans (hadvance.safe u' hq).1) (hne a ha hr)
  · rw [hsame a ha hr]
    exact (h.ready a ha hr).2

/-- An upload that goes on without touching the object. -/
theorem of_phase (h : UploadsSafe s) (hq : ∀ u, q = some u → u.artifactId = key ∧ u.saves = false) :
    Advance s uid key q s.store where
  wf := h.wf
  other k _ := .refl s.store k
  alone := .inl (.refl s.store key)
  safe u hu := ⟨(hq u hu).1, .of_idle (hq u hu).2⟩
  single u hu hsaves := by
    rw [(hq u hu).2] at hsaves
    cases hsaves

theorem ended_safe (h : UploadsSafe s) (uid : ℕ) :
    UploadsSafe (s.setUpload uid none) ∧ ReadyKept s (s.setUpload uid none) := by
  have hadvance : Advance s uid "" none s.store := of_phase h fun _ hq ↦ (by cases hq)
  refine ⟨hadvance.uploads h h.ids fun a ha hr ↦ ⟨fun uid' u' _ hu' ↦
    (h.ready a ha hr).1 uid' u' hu', fun u' hq ↦ (by cases hq), (h.ready a ha hr).2⟩,
    fun _ ha _ ↦ ⟨ha, rfl⟩⟩

/-- A row that becomes failed, while its upload ends. -/
theorem failed_safe (h : UploadsSafe s) {u : Upload} (hu : s.uploads uid = some u)
    (hkey : u.artifactId = key) (hphase : u.phase ≠ .finalized) {f : Artifact → Artifact}
    (hid : ∀ row, (f row).id = row.id) (hf : ∀ row, (f row).isReady = false) :
    UploadsSafe ((s.modifyArtifact key f).setUpload uid none) ∧
      ReadyKept s ((s.modifyArtifact key f).setUpload uid none) := by
  have hne : ∀ a ∈ s.artifacts, a.isReady = true → a.id ≠ key := fun a ha hr hid ↦
    hphase ((h.ready a ha hr).1 uid u hu (hkey.trans hid.symm))
  have hadvance : Advance s uid key none s.store := of_phase h fun _ hq ↦ by cases hq
  refine ⟨hadvance.uploads h ?_ fun a ha hr ↦ ?_, fun a ha hr ↦ ⟨?_, rfl⟩⟩
  · rw [Table.map_key_modify hid]
    exact h.ids
  · rcases Table.mem_modify.mp ha with ⟨row, -, -, rfl⟩ | ⟨hold, -⟩
    · rw [hf] at hr
      cases hr
    · exact ⟨fun uid' u' _ hu' ↦ (h.ready a hold hr).1 uid' u' hu', fun u' hq ↦ (by cases hq),
        (h.ready a hold hr).2⟩
  · exact Table.mem_modify.mpr (.inr ⟨ha, hne a ha hr⟩)

end Advance

/-! ## Steps -/

/-- The step keeps the invariant and the ready artifacts. -/
def StepSafe (env : Env) (maximum : ℕ) (step : UploadStep) (s : UploadWorld) : Prop :=
  UploadsSafe (step.exec env maximum s) ∧ ReadyKept s (step.exec env maximum s)

theorem stepSafe_idle (h : UploadsSafe s) : UploadsSafe s ∧ ReadyKept s s :=
  ⟨h, fun _ ha _ ↦ ⟨ha, rfl⟩⟩

theorem stepSafe_run (h : UploadsSafe s) (op : RunOp) : StepSafe env maximum (.run op) s := by
  obtain ⟨db, hdb⟩ := UploadStep.exec_run env maximum op s
  rw [StepSafe, hdb]
  exact ⟨⟨h.wf, h.ids, h.safe, h.single, h.ready⟩, fun _ ha _ ↦ ⟨ha, rfl⟩⟩

theorem stepSafe_create (h : UploadsSafe s) (runnerId leaseToken : String) (task : TaskId)
    (id : String) (description : ArtifactDescription) :
    StepSafe env maximum (.create runnerId leaseToken task id description) s := by
  simp only [StepSafe, UploadStep.exec]
  split
  · next artifact hcreate =>
    obtain ⟨rfl, hstaging⟩ := createRunnerArtifactUpload_ok hcreate
    split
    · exact stepSafe_idle h
    · next hfresh =>
      refine ⟨⟨h.wf, ?_, h.safe, h.single, fun a ha hr ↦ ?_⟩, fun a ha hr ↦
        ⟨List.mem_append_left _ ha, rfl⟩⟩
      · rw [List.map_append, List.map_singleton, List.nodup_append]
        refine ⟨h.ids, List.nodup_singleton _, fun id hid id' hid' heq ↦ hfresh ?_⟩
        rwa [← List.mem_singleton.mp hid', ← heq]
      · rcases List.mem_append.mp ha with hold | hnew
        · exact h.ready a hold hr
        · rw [List.mem_singleton.mp hnew, hstaging] at hr
          cases hr
  · exact stepSafe_idle h

theorem stepSafe_validate (h : UploadsSafe s) (uid : ℕ) (artifactId runnerId : String)
    (task : TaskId) (leaseToken : String) :
    StepSafe env maximum (.validate uid artifactId runnerId task leaseToken) s := by
  simp only [StepSafe, UploadStep.exec]
  split
  · next artifact _ hvalidate =>
    obtain ⟨hfind, hstaging⟩ := validateRunnerArtifactUpload_ok hvalidate
    have hadvance : Advance s uid artifactId
        (some { artifactId := artifactId, loaded := artifact }) s.store :=
      .of_phase h fun _ hq ↦ by cases hq; exact ⟨rfl, rfl⟩
    refine ⟨hadvance.uploads h h.ids fun a ha hr ↦ ⟨fun uid' u' _ hu' ↦
      (h.ready a ha hr).1 uid' u' hu', fun u' hq hid ↦ ?_, (h.ready a ha hr).2⟩,
      fun _ ha _ ↦ ⟨ha, rfl⟩⟩
    cases hq
    have hrow := Table.find?_of_mem h.ids ha
    rw [← hid, hfind] at hrow
    cases hrow
    rw [hstaging] at hr
    cases hr
  · exact stepSafe_idle h

theorem stepSafe_declaredTooLarge (h : UploadsSafe s) (uid : ℕ) :
    StepSafe env maximum (.declaredTooLarge uid) s := by
  simp only [StepSafe, UploadStep.exec]
  split
  · next hu => exact Advance.failed_safe h hu rfl (by simp) (fun _ ↦ rfl) (failUpload_isReady _ _)
  · exact stepSafe_idle h

theorem stepSafe_receive (h : UploadsSafe s) (uid : ℕ) (content : List UInt8) :
    StepSafe env maximum (.receive uid content) s := by
  simp only [StepSafe, UploadStep.exec]
  split
  · next artifactId loaded hu =>
    refine (Advance.of_phase h fun u hq ↦ ?_).open_safe h hu rfl (by simp)
    cases hq
    refine ⟨rfl, ?_⟩
    split <;> rfl
  · exact stepSafe_idle h

theorem stepSafe_interrupt (h : UploadsSafe s) {uid : ℕ} {error : Option RelayviaError}
    (hallowed : UploadStep.Exclusive s (.interrupt uid error)) :
    StepSafe env maximum (.interrupt uid error) s := by
  simp only [StepSafe, UploadStep.exec]
  split
  · exact stepSafe_idle h
  · exact stepSafe_idle h
  · exact stepSafe_idle h
  · next artifactId loaded phase _ _ hu =>
    refine (Advance.of_phase h fun u hq ↦ ?_).open_safe h hu rfl (hallowed _ hu)
    cases hq
    exact ⟨rfl, rfl⟩

theorem stepSafe_openFile (h : UploadsSafe s) {uid : ℕ}
    (hallowed : UploadStep.Exclusive s (.openFile uid)) :
    StepSafe env maximum (.openFile uid) s := by
  simp only [StepSafe, UploadStep.exec]
  split
  · next artifactId loaded content hu =>
    have hothers := hallowed _ hu
    refine Advance.open_safe h ⟨h.wf.openWrite _, fun k hk ↦ FileStore.sameAt_openWrite h.wf hk,
      .inr hothers, fun u hq ↦ ?_, fun u hq _ ↦ ?_⟩ hu rfl (by simp)
    · cases hq
      refine ⟨rfl, fun content' inode written hphase ↦ ?_, fun _ hphase ↦ by cases hphase⟩
      cases hphase
      exact ⟨FileStore.paths_openWrite _, Nat.zero_le _, FileStore.content_openWrite_self _⟩
    · exact hothers
  · exact stepSafe_idle h

theorem stepSafe_write (h : UploadsSafe s) (uid n : ℕ) :
    StepSafe env maximum (.write uid n) s := by
  simp only [StepSafe, UploadStep.exec]
  split
  · next artifactId loaded content inode written hu =>
    obtain ⟨hpath, hwritten, hbytes⟩ := (h.safe uid _ hu).saving _ _ _ rfl
    have hothers : ∀ uid' u', uid' ≠ uid → s.uploads uid' = some u' →
        u'.artifactId = artifactId → u'.saves = false := fun uid' u' hne hu' hkey ↦
      Bool.eq_false_iff.mpr fun hsaves ↦ hne (h.single uid uid' _ u' hu hu' hkey rfl hsaves)
    refine Advance.open_safe h ⟨h.wf.write _ _ _, fun k hk ↦ FileStore.sameAt_write h.wf hpath hk,
      .inr hothers, fun u hq ↦ ?_, fun u hq _ ↦ hothers⟩ hu rfl (by simp)
    cases hq
    refine ⟨rfl, fun content' inode' written' hphase ↦ ?_, fun _ hphase ↦ by cases hphase⟩
    cases hphase
    refine ⟨hpath, ?_, ?_⟩
    · rw [List.length_take, List.length_drop]
      omega
    · rw [FileStore.content_write_self hpath hbytes, FileStore.overwrite_take hwritten]
      rw [Option.some.injEq, List.take_eq_take_iff, List.length_take, List.length_drop]
      omega
  · exact stepSafe_idle h

theorem stepSafe_stat (h : UploadsSafe s) (uid : ℕ) : StepSafe env maximum (.stat uid) s := by
  simp only [StepSafe, UploadStep.exec]
  split
  · next artifactId loaded content inode written hu =>
    obtain ⟨-, -, hbytes⟩ := (h.safe uid _ hu).saving _ _ _ rfl
    split
    · exact stepSafe_idle h
    · rw [hbytes]
      have hothers : ∀ uid' u', uid' ≠ uid → s.uploads uid' = some u' →
          u'.artifactId = artifactId → u'.saves = false := fun uid' u' hne hu' hkey ↦
        Bool.eq_false_iff.mpr fun hsaves ↦ hne (h.single uid uid' _ u' hu hu' hkey rfl hsaves)
      have hadvance : Advance s uid artifactId
          (some ⟨artifactId, loaded, .saved (content.take written).length⟩) s.store := by
        refine ⟨h.wf, fun k _ ↦ .refl _ k, .inl (.refl _ _), fun u hq ↦ ?_, fun _ _ _ ↦ hothers⟩
        cases hq
        refine ⟨rfl, fun _ _ _ hphase ↦ (by cases hphase), fun size hphase ↦ ?_⟩
        cases hphase
        exact ⟨_, hbytes, rfl⟩
      exact hadvance.open_safe h hu rfl (by simp)
  · exact stepSafe_idle h

theorem stepSafe_put (h : UploadsSafe s) {uid : ℕ}
    (hallowed : UploadStep.Exclusive s (.put uid)) : StepSafe env maximum (.put uid) s := by
  simp only [StepSafe, UploadStep.exec]
  split
  · next artifactId loaded content hu =>
    have hothers := hallowed _ hu
    refine Advance.open_safe h ⟨h.wf.put _ _, fun k hk ↦ FileStore.sameAt_put h.wf hk,
      .inr hothers, fun u hq ↦ ?_, fun u hq _ ↦ hothers⟩ hu rfl (by simp)
    cases hq
    refine ⟨rfl, fun _ _ _ hphase ↦ (by cases hphase), fun size hphase ↦ ?_⟩
    cases hphase
    exact ⟨content, FileStore.content_put_self, rfl⟩
  · exact stepSafe_idle h

theorem stepSafe_finalize (h : UploadsSafe s) {uid : ℕ}
    (hallowed : UploadStep.Exclusive s (.finalize uid)) :
    StepSafe env maximum (.finalize uid) s := by
  simp only [StepSafe, UploadStep.exec]
  split
  · next artifactId loaded size hu =>
    obtain ⟨bytes, hbytes, hsize⟩ := (h.safe uid _ hu).saved _ rfl
    have hne : ∀ a ∈ s.artifacts, a.isReady = true → a.id ≠ artifactId := fun a ha hr hid ↦
      absurd ((h.ready a ha hr).1 uid _ hu hid.symm) (by simp)
    have hadvance : Advance s uid artifactId (some ⟨artifactId, loaded, .finalized⟩) s.store :=
      .of_phase h fun u hq ↦ by cases hq; exact ⟨rfl, rfl⟩
    refine ⟨hadvance.uploads h ?_ fun a ha hr ↦ ?_, fun a ha hr ↦ ⟨?_, rfl⟩⟩
    · rw [Table.map_key_modify (f := finalizeUpload loaded size) fun _ ↦ rfl]
      exact h.ids
    · rcases Table.mem_modify.mp ha with ⟨row, -, rfl, rfl⟩ | ⟨hold, hother⟩
      · exact ⟨fun uid' u' hne' hu' hid ↦ absurd hid (hallowed _ hu uid' u' hne' hu'),
          fun u' hq _ ↦ (by cases hq; rfl), bytes, hbytes, by simp [finalizeUpload, hsize]⟩
      · exact ⟨fun uid' u' _ hu' ↦ (h.ready a hold hr).1 uid' u' hu',
          fun u' hq _ ↦ (by cases hq; rfl), (h.ready a hold hr).2⟩
    · exact Table.mem_modify.mpr (.inr ⟨ha, hne a ha hr⟩)
  · exact stepSafe_idle h

theorem stepSafe_respond (h : UploadsSafe s) (uid : ℕ) :
    StepSafe env maximum (.respond uid) s := by
  simp only [StepSafe, UploadStep.exec]
  split
  · exact Advance.ended_safe h uid
  · exact stepSafe_idle h

theorem stepSafe_delete (h : UploadsSafe s) {uid : ℕ} {ok : Bool}
    (hallowed : UploadStep.Exclusive s (.delete uid ok)) :
    StepSafe env maximum (.delete uid ok) s := by
  simp only [StepSafe, UploadStep.exec]
  split
  · next artifactId loaded error hu =>
    have hothers := hallowed _ hu
    have hq : ∀ u, some (⟨artifactId, loaded, .removed error⟩ : Upload) = some u →
        u.artifactId = artifactId ∧ u.saves = false := fun u hq ↦ by cases hq; exact ⟨rfl, rfl⟩
    split
    · have hadvance : Advance s uid artifactId (some ⟨artifactId, loaded, .removed error⟩)
          (s.store.unlink artifactId) := by
        refine ⟨h.wf.unlink _, fun k hk ↦ FileStore.sameAt_unlink hk, .inr hothers,
          fun u hu' ↦ ⟨(hq u hu').1, .of_idle (hq u hu').2⟩, fun u hu' hsaves ↦ ?_⟩
        rw [(hq u hu').2] at hsaves
        cases hsaves
      exact hadvance.open_safe h hu rfl (by simp)
    · exact (Advance.of_phase h hq).open_safe h hu rfl (by simp)
  · exact stepSafe_idle h

theorem stepSafe_fail (h : UploadsSafe s) (uid : ℕ) : StepSafe env maximum (.fail uid) s := by
  simp only [StepSafe, UploadStep.exec]
  split
  · next hu =>
    exact Advance.failed_safe h hu rfl (by simp) (fun _ ↦ rfl) fun row ↦ failUpload_isReady _ _ _
  · exact stepSafe_idle h

variable (env maximum) in
theorem stepSafe (h : UploadsSafe s) {step : UploadStep} (hallowed : step.Exclusive s) :
    StepSafe env maximum step s := by
  cases step with
  | run op => exact stepSafe_run h op
  | create runnerId leaseToken task id description =>
      exact stepSafe_create h runnerId leaseToken task id description
  | validate uid artifactId runnerId task leaseToken =>
      exact stepSafe_validate h uid artifactId runnerId task leaseToken
  | declaredTooLarge uid => exact stepSafe_declaredTooLarge h uid
  | receive uid content => exact stepSafe_receive h uid content
  | interrupt uid error => exact stepSafe_interrupt h hallowed
  | openFile uid => exact stepSafe_openFile h hallowed
  | write uid n => exact stepSafe_write h uid n
  | stat uid => exact stepSafe_stat h uid
  | put uid => exact stepSafe_put h hallowed
  | finalize uid => exact stepSafe_finalize h hallowed
  | respond uid => exact stepSafe_respond h uid
  | delete uid ok => exact stepSafe_delete h hallowed
  | fail uid => exact stepSafe_fail h uid
  | exit uid => exact Advance.ended_safe h uid

/-! ## Runs -/

theorem uploadsSafe_empty (db : RunRecord) : UploadsSafe { db := db } where
  wf := FileStore.wf_empty
  ids := List.nodup_nil
  safe _ _ hu := by cases hu
  single _ _ _ _ hu := by cases hu
  ready _ ha := by cases ha

theorem UploadWorld.Steps.safe (h : UploadsSafe s)
    (hsteps : Steps env maximum (fun s step ↦ step.Exclusive s) s s') :
    UploadsSafe s' ∧ ReadyKept s s' := by
  induction hsteps with
  | refl => exact stepSafe_idle h
  | step step _ hallowed ih =>
      obtain ⟨hsafe, hkept⟩ := ih
      obtain ⟨hsafe', hkept'⟩ := stepSafe env maximum hsafe hallowed
      refine ⟨hsafe', fun a ha hr ↦ ?_⟩
      obtain ⟨hmem, hcontent⟩ := hkept a ha hr
      obtain ⟨hmem', hcontent'⟩ := hkept' a hmem hr
      exact ⟨hmem', hcontent'.trans hcontent⟩

/-- A ready artifact stays as it is, and its size is the length of its object. -/
theorem ready_artifact_intact (env : Env) (maximum : ℕ) {db : RunRecord} {s s' : UploadWorld}
    (hs : UploadWorld.Steps env maximum (fun s step ↦ step.Exclusive s) { db := db } s)
    (hs' : UploadWorld.Steps env maximum (fun s step ↦ step.Exclusive s) s s')
    {a : Artifact} (ha : a ∈ s.artifacts) (hready : a.isReady = true) :
    ∃ bytes, s.store.content a.id = some bytes ∧ a.size = some bytes.length ∧
      Table.find? Artifact.id a.id s'.artifacts = some a ∧
      s'.store.content a.id = some bytes := by
  have hsafe := (hs.safe (uploadsSafe_empty db)).1
  obtain ⟨-, bytes, hbytes, hsize⟩ := hsafe.ready a ha hready
  obtain ⟨hsafe', hkept⟩ := hs'.safe hsafe
  obtain ⟨hmem, hcontent⟩ := hkept a ha hready
  exact ⟨bytes, hbytes, hsize, Table.find?_of_mem hsafe'.ids hmem, hcontent.trans hbytes⟩

/-- The Runner claims the task and announces an artifact. -/
def stagingSteps : List UploadStep :=
  [.run (.startRun 0), .run (.schedule 0), .run (.runnerClaim 0 shellRunner "t1" 60 0),
    .create "r" "t1" 0 "a" { name := "log", type := "file" }]

/-- One upload from the validation to the commit. -/
def uploadSteps (uid : ℕ) (content : List UInt8) : List UploadStep :=
  [.receive uid content, .openFile uid, .write uid content.length, .stat uid, .finalize uid]

theorem UploadWorld.Steps.execAll {allowed : UploadWorld → UploadStep → Prop}
    (steps : List UploadStep) (h : UploadWorld.Steps env maximum allowed s s')
    (hsteps : ∀ step ∈ steps, ∀ t, allowed t step) :
    UploadWorld.Steps env maximum allowed s (UploadStep.execAll env maximum steps s') := by
  induction steps generalizing s' with
  | nil => exact h
  | cons step steps ih =>
      exact ih (.step step h (hsteps step (List.mem_cons_self ..) s')) fun step' hstep' ↦
        hsteps step' (List.mem_cons_of_mem _ hstep')

theorem ready_artifact_intact_single : ∃ s s' : UploadWorld,
    UploadWorld.Steps plainEnv 8 (fun s step ↦ step.Exclusive s) { db := worktreeRun } s ∧
    UploadWorld.Steps plainEnv 8 (fun s step ↦ step.Exclusive s) s s' ∧
    ∃ a ∈ s.artifacts, a.isReady = true ∧ ∃ bytes, s.store.content a.id = some bytes ∧
      a.size = some bytes.length ∧ Table.find? Artifact.id a.id s'.artifacts = some a ∧
      s'.store.content a.id = some bytes := by
  have hreceived : UploadWorld.Steps plainEnv 8 (fun s step ↦ step.Exclusive s)
      { db := worktreeRun }
      (UploadStep.execAll plainEnv 8
        (stagingSteps ++ [.validate 0 "a" "r" 0 "t1", .receive 0 [1, 2]]) { db := worktreeRun }) :=
    UploadWorld.Steps.refl.execAll _ (by simp [stagingSteps, UploadStep.Exclusive])
  have hopened := hreceived.step (.openFile 0) (by
    intro u _ uid' u' hne hu'
    change Function.update (Function.update (fun _ ↦ none) 0 _) 0 _ uid' = some u' at hu'
    simp [hne] at hu')
  have hsaved := hopened.execAll [.write 0 2, .stat 0] (by simp [UploadStep.Exclusive])
  have hfinalized := hsaved.step (.finalize 0) (by
    intro u _ uid' u' hne hu'
    change Function.update (Function.update (Function.update (Function.update
      (Function.update (fun _ ↦ none) 0 _) 0 _) 0 _) 0 _) 0 _ uid' = some u' at hu'
    simp [hne] at hu')
  refine ⟨_, _, hfinalized, .step (.respond 0) .refl trivial, _, List.mem_singleton_self _, ?_⟩
  exact ⟨rfl, ready_artifact_intact plainEnv 8 hfinalized (.step (.respond 0) .refl trivial)
    (List.mem_singleton_self _) rfl⟩

/-- Two uploads pass the validation; the second one loses its connection after the first
one has made the artifact ready. -/
theorem not_ready_artifact_intact : ∃ s s' : UploadWorld,
    UploadWorld.Steps plainEnv 8 (fun _ _ ↦ True) { db := worktreeRun } s ∧
    UploadWorld.Steps plainEnv 8 (fun _ _ ↦ True) s s' ∧
    ∃ a ∈ s.artifacts, a.isReady = true ∧ s.store.content a.id = some [1, 2] ∧
      (Table.find? Artifact.id a.id s'.artifacts).map Artifact.uploadStatus =
        some (some (.str "failed")) ∧
      s'.store.content a.id = none := by
  have hready : UploadWorld.Steps plainEnv 8 (fun _ _ ↦ True) { db := worktreeRun }
      (UploadStep.execAll plainEnv 8
        (stagingSteps ++ [.validate 0 "a" "r" 0 "t1", .validate 1 "a" "r" 0 "t1"] ++
          uploadSteps 0 [1, 2]) { db := worktreeRun }) :=
    UploadWorld.Steps.refl.execAll _ fun _ _ _ ↦ trivial
  refine ⟨_, _, hready, UploadWorld.Steps.refl.execAll
    [.interrupt 1 none, .delete 1 true, .fail 1] fun _ _ _ ↦ trivial, _,
    List.mem_singleton_self _, ?_⟩
  exact ⟨rfl, rfl, rfl, rfl⟩

end Relayvia
