import Relayvia.Artifacts.Compensation
import Relayvia.Coupling

/-!
# All or nothing

What the rows and the storage hold after the registration of a list of candidates,
wherever it stops.
-/

namespace Relayvia

abbrev CandidateEntry := String × Option ArtifactCandidate

/-- How a candidate ends the loop. -/
inductive CandidateFailure where
  | rejected
  | write (left : Option (List UInt8))
  | insert

def candidateFailure (env : WorkerEnv) (faults : ArtifactFaults) (workflowRunId : String)
    (rows : List Artifact) (id : String) (item : ArtifactCandidate) : Option CandidateFailure :=
  match checkCandidate env workflowRunId (faults.selectRaises id) rows item with
  | .error _ => some .rejected
  | .ok (.bytes _) =>
      match faults.save id with
      | .raised left => some (.write left)
      | .stored => if faults.flushRaises id then some .insert else none
  | .ok (.external _) => if faults.flushRaises id then some .insert else none
  | .ok (.reference _) | .ok .skipped => none

/-- The row of a candidate that is registered. -/
def candidateRows (env : WorkerEnv) (workflowRunId : String) (producer : NodeId) :
    CandidateEntry → List Artifact
  | (_, none) => []
  | (id, some item) =>
      let artifact := candidateArtifact env workflowRunId producer id item
      match item.source with
      | .bytes content => [{ artifact with size := some content.length }]
      | .external uri => [{ artifact with uri := uri }]
      | .reference _ | .skipped => []

/-- The object of a candidate that carries its content. -/
def candidateObjects : CandidateEntry → List (String × List UInt8)
  | (_, none) => []
  | (id, some item) =>
      match item.source with
      | .bytes content => [(id, content)]
      | .external _ | .reference _ | .skipped => []

def contentIds (items : List CandidateEntry) : List String :=
  (items.flatMap candidateObjects).map Prod.fst

/-- The first candidate that is rejected or for which a call raises, with the ones before
it. -/
def firstFailure (env : WorkerEnv) (faults : ArtifactFaults) (workflowRunId : String)
    (producer : NodeId) : List Artifact → List CandidateEntry →
      Option (List CandidateEntry × CandidateEntry × CandidateFailure)
  | _, [] => none
  | rows, (id, none) :: items =>
      (firstFailure env faults workflowRunId producer rows items).map fun (earlier, rest) ↦
        ((id, none) :: earlier, rest)
  | rows, (id, some item) :: items =>
      match candidateFailure env faults workflowRunId rows id item with
      | some failure => some ([], (id, some item), failure)
      | none =>
          let rows := rows ++ candidateRows env workflowRunId producer (id, some item)
          (firstFailure env faults workflowRunId producer rows items).map fun (earlier, rest) ↦
            ((id, some item) :: earlier, rest)

/-- What a failing candidate makes of the storage; `stored` are the objects before it. -/
def CandidateFailure.leaves (faults : ArtifactFaults) (stored : List String)
    (entry : CandidateEntry) (store : FileStore String) : CandidateFailure → FileStore String
  | rejected => store
  | write none => store
  | write (some left) => store.put entry.1 left
  | insert =>
      (stored ++ (candidateObjects entry).map Prod.fst).foldl faults.delete
        (store.putAll (candidateObjects entry))

/-! ## The loop -/

namespace ArtifactSession

/-- `s'` is `s` with the rows and objects of `items`. -/
structure Adds (env : WorkerEnv) (workflowRunId : String) (producer : NodeId)
    (items : List CandidateEntry) (s s' : ArtifactSession) : Prop where
  artifacts : s'.artifacts = s.artifacts ++ items.flatMap (candidateRows env workflowRunId producer)
  listeners : s'.listeners = s.listeners ++ contentIds items
  store : s'.store = s.store.putAll (items.flatMap candidateObjects)

variable {env : WorkerEnv} {faults : ArtifactFaults} {workflowRunId : String} {producer : NodeId}
  {s s' s'' : ArtifactSession} {items items' : List CandidateEntry} {id : String}
  {item : ArtifactCandidate}

theorem Adds.nil (s : ArtifactSession) : Adds env workflowRunId producer [] s s where
  artifacts := by simp
  listeners := by simp [contentIds]
  store := rfl

theorem Adds.append (h : Adds env workflowRunId producer items s s')
    (h' : Adds env workflowRunId producer items' s' s'') :
    Adds env workflowRunId producer (items ++ items') s s'' where
  artifacts := by simp [h'.artifacts, h.artifacts]
  listeners := by simp [h'.listeners, h.listeners, contentIds]
  store := by simp [h'.store, h.store, FileStore.putAll]

theorem Adds.skip (h : Adds env workflowRunId producer items s s') :
    Adds env workflowRunId producer ((id, none) :: items) s s' :=
  ⟨h.artifacts, h.listeners, h.store⟩

theorem checkCandidate_source {selectRaises : Bool} {rows : List Artifact}
    {checked : CheckedCandidate}
    (h : checkCandidate env workflowRunId selectRaises rows item = .ok checked) :
    match checked with
    | .bytes content => item.source = .bytes content
    | .external uri => item.source = .external uri
    | .reference _ => ∃ uri, item.source = .reference uri
    | .skipped => item.source = .skipped := by
  unfold checkCandidate at h
  split at h
  · cases h
  · split at h
    · rename_i content hsource
      split at h
      · cases h
      · cases h
        exact hsource
    · rename_i uri hsource
      split at h
      · cases h
      · cases hreference : referencedArtifact workflowRunId uri rows with
        | error failure =>
            rw [hreference] at h
            cases h
        | ok referenced =>
            rw [hreference] at h
            cases h
            exact ⟨uri, hsource⟩
    · rename_i uri hsource
      cases hexternal : validateExternalUri env uri with
      | error failure =>
          rw [hexternal] at h
          cases h
      | ok _ =>
          rw [hexternal] at h
          cases h
          exact hsource
    · rename_i hsource
      cases h
      exact hsource

variable (producer) in
theorem registerCandidate_of_none
    (h : candidateFailure env faults workflowRunId s.artifacts id item = none) :
    ∃ s', s.registerCandidate env faults workflowRunId producer id item = .ok s' ∧
      Adds env workflowRunId producer [(id, some item)] s s' := by
  unfold candidateFailure at h
  simp only [registerCandidate]
  cases hcheck : checkCandidate env workflowRunId (faults.selectRaises id) s.artifacts item with
  | error failure => simp [hcheck] at h
  | ok checked =>
      have hsource := checkCandidate_source hcheck
      cases checked with
      | bytes content =>
          cases hsave : faults.save id with
          | raised left => simp [hcheck, hsave] at h
          | stored =>
              have hflush : faults.flushRaises id = false := by
                simpa [hcheck, hsave] using h
              refine ⟨_, by
                simp [registerArtifactBytes, candidateArtifact, hsave, hflush, Except.map,
                  pure, Except.pure]; rfl, ?_⟩
              constructor <;>
                simp [hsource, candidateRows, candidateObjects, contentIds, refer,
                  Registration.refer, Registration.registerArtifactBytes, candidateArtifact,
                  FileStore.putAll]
      | external uri =>
          have hflush : faults.flushRaises id = false := by simpa [hcheck] using h
          refine ⟨_, by
            simp [registerExternalArtifact, candidateArtifact, hflush, Except.map, pure,
              Except.pure]; rfl, ?_⟩
          constructor <;>
            simp [hsource, candidateRows, candidateObjects, contentIds, refer,
              Registration.refer, Registration.registerExternalArtifact, candidateArtifact,
              FileStore.putAll]
      | reference referenced =>
          obtain ⟨uri, hsource⟩ := hsource
          refine ⟨_, rfl, ?_⟩
          constructor <;>
            simp [hsource, candidateRows, candidateObjects, contentIds, refer,
              Registration.refer, FileStore.putAll]
      | skipped =>
          refine ⟨s, rfl, ?_⟩
          constructor <;>
            simp [hsource, candidateRows, candidateObjects, contentIds, FileStore.putAll]

variable (producer) in
theorem registerCandidate_of_some {failure : CandidateFailure}
    (h : candidateFailure env faults workflowRunId s.artifacts id item = some failure) :
    ∃ raised s', s.registerCandidate env faults workflowRunId producer id item =
        .error (raised, s') ∧
      s'.store = failure.leaves faults s.listeners (id, some item) s.store := by
  unfold candidateFailure at h
  simp only [registerCandidate]
  cases hcheck : checkCandidate env workflowRunId (faults.selectRaises id) s.artifacts item with
  | error raised =>
      simp only [hcheck, Option.some.injEq] at h
      subst h
      exact ⟨raised, s, rfl, rfl⟩
  | ok checked =>
      have hsource := checkCandidate_source hcheck
      cases checked with
      | bytes content =>
          simp only [hcheck] at h
          simp only [registerArtifactBytes, candidateArtifact]
          cases hsave : faults.save id with
          | raised left =>
              simp only [hsave, Option.some.injEq] at h
              subst h
              cases left with
              | none => exact ⟨none, s, rfl, rfl⟩
              | some left => exact ⟨none, _, rfl, rfl⟩
          | stored =>
              simp only [hsave, Option.ite_none_right_eq_some, Option.some.injEq] at h
              obtain ⟨hflush, rfl⟩ := h
              refine ⟨none, _, by simp only [hflush, if_true]; rfl, ?_⟩
              simp [CandidateFailure.leaves, candidateObjects, hsource, afterRollback,
                FileStore.putAll]
      | external uri =>
          simp only [hcheck, Option.ite_none_right_eq_some, Option.some.injEq] at h
          obtain ⟨hflush, rfl⟩ := h
          simp only [registerExternalArtifact, candidateArtifact]
          refine ⟨none, _, by simp only [hflush, if_true]; rfl, ?_⟩
          simp [CandidateFailure.leaves, candidateObjects, hsource, afterRollback,
            FileStore.putAll]
      | reference referenced => simp [hcheck] at h
      | skipped => simp [hcheck] at h

theorem registerArtifactCandidates_of_none
    (h : firstFailure env faults workflowRunId producer s.artifacts items = none) :
    ∃ s', s.registerArtifactCandidates env faults workflowRunId producer items = .ok s' ∧
      Adds env workflowRunId producer items s s' := by
  induction items generalizing s with
  | nil => exact ⟨s, rfl, .nil s⟩
  | cons entry items ih =>
      obtain ⟨id, _ | item⟩ := entry
      · simp only [firstFailure, Option.map_eq_none_iff] at h
        obtain ⟨s', hs', hadds⟩ := ih h
        exact ⟨s', hs', hadds.skip⟩
      · simp only [firstFailure] at h
        split at h
        · cases h
        · rename_i hnone
          obtain ⟨s₁, hs₁, hadds₁⟩ := registerCandidate_of_none producer hnone
          rw [Option.map_eq_none_iff, ← List.flatMap_singleton
            (candidateRows env workflowRunId producer), ← hadds₁.artifacts] at h
          obtain ⟨s', hs', hadds⟩ := ih h
          refine ⟨s', ?_, hadds₁.append hadds⟩
          rw [registerArtifactCandidates, hs₁]
          exact hs'

theorem registerArtifactCandidates_of_some {earlier : List CandidateEntry}
    {entry : CandidateEntry} {failure : CandidateFailure}
    (h : firstFailure env faults workflowRunId producer s.artifacts items =
      some (earlier, entry, failure)) :
    ∃ raised s', s.registerArtifactCandidates env faults workflowRunId producer items =
        .error (raised, s') ∧
      s'.store = failure.leaves faults (s.listeners ++ contentIds earlier) entry
        (s.store.putAll (earlier.flatMap candidateObjects)) := by
  induction items generalizing s earlier with
  | nil => cases h
  | cons head items ih =>
      obtain ⟨id, _ | item⟩ := head
      · simp only [firstFailure, Option.map_eq_some_iff, Prod.mk.injEq] at h
        obtain ⟨⟨earlier, rest⟩, hrest, rfl, rfl⟩ := h
        obtain ⟨raised, s', hs', hstore⟩ := ih hrest
        exact ⟨raised, s', hs', hstore⟩
      · simp only [firstFailure] at h
        split at h
        · rename_i hsome
          cases h
          obtain ⟨raised, s', hs', hstore⟩ := registerCandidate_of_some producer hsome
          refine ⟨raised, s', ?_, by simpa [contentIds, FileStore.putAll] using hstore⟩
          rw [registerArtifactCandidates, hs']
          rfl
        · rename_i hnone
          obtain ⟨s₁, hs₁, hadds₁⟩ := registerCandidate_of_none producer hnone
          simp only [Option.map_eq_some_iff, Prod.mk.injEq] at h
          obtain ⟨⟨earlier, rest⟩, hrest, rfl, rfl⟩ := h
          rw [← List.flatMap_singleton (candidateRows env workflowRunId producer),
            ← hadds₁.artifacts] at hrest
          obtain ⟨raised, s', hs', hstore⟩ := ih hrest
          refine ⟨raised, s', ?_, ?_⟩
          · rw [registerArtifactCandidates, hs₁]
            exact hs'
          · rw [hstore, hadds₁.listeners, hadds₁.store]
            simp [contentIds, FileStore.putAll]

end ArtifactSession

/-! ## After the block -/

/-- The candidate has what it asks for: a row, and the object with its content. -/
def ArtifactStores.Registered (s : ArtifactStores) : CandidateEntry → Prop
  | (_, none) => True
  | (id, some item) =>
      match item.source with
      | .bytes content =>
          (∃ row ∈ s.artifacts, row.id = id) ∧ s.store.content id = some content
      | .external _ => ∃ row ∈ s.artifacts, row.id = id
      | .reference _ | .skipped => True

def ArtifactStores.NothingOf (s : ArtifactStores) (ids : List String) : Prop :=
  ∀ id ∈ ids, (∀ row ∈ s.artifacts, row.id ≠ id) ∧ s.store.content id = none

def ArtifactStores.AllOrNothing (s : ArtifactStores) (items : List CandidateEntry) : Prop :=
  (∀ entry ∈ items, s.Registered entry) ∨ s.NothingOf (items.map Prod.fst)

/-- The ids come from `uuid4`: they are different, and no row or object has one of them. -/
structure ArtifactStores.Fresh (s : ArtifactStores) (items : List CandidateEntry) : Prop where
  nodup : (items.map Prod.fst).Nodup
  unused : s.NothingOf (items.map Prod.fst)

/-- Nothing had been stored when the candidate failed, or a failed INSERT finds the storage
able to delete. -/
def CandidateFailure.Undone (faults : ArtifactFaults) (earlier : List CandidateEntry)
    (entry : CandidateEntry) : CandidateFailure → Prop
  | rejected => contentIds earlier = []
  | write left => contentIds earlier = [] ∧ left = none
  | insert => ∀ id ∈ contentIds (earlier ++ [entry]), faults.deleteRaises id = false

section

variable {env : WorkerEnv} {faults : ArtifactFaults} {workflowRunId : String} {producer : NodeId}
  {items earlier : List CandidateEntry} {entry : CandidateEntry} {failure : CandidateFailure}
  {before : ArtifactStores} {rows : List Artifact}

theorem firstFailure_split
    (h : firstFailure env faults workflowRunId producer rows items =
      some (earlier, entry, failure)) : ∃ later, items = earlier ++ entry :: later := by
  induction items generalizing rows earlier with
  | nil => cases h
  | cons head items ih =>
      obtain ⟨id, _ | item⟩ := head
      · simp only [firstFailure, Option.map_eq_some_iff, Prod.mk.injEq] at h
        obtain ⟨⟨earlier, rest⟩, hrest, rfl, rfl⟩ := h
        obtain ⟨later, hlater⟩ := ih hrest
        exact ⟨later, by simp [hlater]⟩
      · simp only [firstFailure] at h
        split at h
        · cases h
          exact ⟨items, rfl⟩
        · simp only [Option.map_eq_some_iff, Prod.mk.injEq] at h
          obtain ⟨⟨earlier, rest⟩, hrest, rfl, rfl⟩ := h
          obtain ⟨later, hlater⟩ := ih hrest
          exact ⟨later, by simp [hlater]⟩

/-- Only a candidate with content is written to the storage. -/
theorem firstFailure_write {left : Option (List UInt8)}
    (h : firstFailure env faults workflowRunId producer rows items =
      some (earlier, entry, .write left)) : contentIds [entry] = [entry.1] := by
  induction items generalizing rows earlier with
  | nil => cases h
  | cons head items ih =>
      obtain ⟨id, _ | item⟩ := head
      · simp only [firstFailure, Option.map_eq_some_iff, Prod.mk.injEq] at h
        obtain ⟨⟨earlier, rest⟩, hrest, rfl, rfl⟩ := h
        exact ih hrest
      · simp only [firstFailure] at h
        split at h
        · rename_i hfailure
          cases h
          unfold candidateFailure at hfailure
          split at hfailure
          · cases hfailure
          · rename_i content hcheck
            have hsource := ArtifactSession.checkCandidate_source hcheck
            simp [contentIds, candidateObjects, hsource]
          · split at hfailure <;> cases hfailure
          · cases hfailure
          · cases hfailure
        · simp only [Option.map_eq_some_iff, Prod.mk.injEq] at h
          obtain ⟨⟨earlier, rest⟩, hrest, rfl, rfl⟩ := h
          exact ih hrest

theorem registerInSession_of_none
    (h : firstFailure env faults workflowRunId producer before.artifacts items = none) :
    registerInSession env faults workflowRunId producer items before =
      { artifacts :=
          if faults.commitRaises then before.artifacts
          else before.artifacts ++ items.flatMap (candidateRows env workflowRunId producer)
        store := before.store.putAll (items.flatMap candidateObjects) } := by
  obtain ⟨s, hs, hadds⟩ := ArtifactSession.registerArtifactCandidates_of_none
    (s := { artifacts := before.artifacts, store := before.store }) h
  simp only [registerInSession, hs, hadds.artifacts, hadds.store]
  split <;> rfl

theorem registerInSession_of_some
    (h : firstFailure env faults workflowRunId producer before.artifacts items =
      some (earlier, entry, failure)) :
    registerInSession env faults workflowRunId producer items before =
      { before with
        store := failure.leaves faults (contentIds earlier) entry
          (before.store.putAll (earlier.flatMap candidateObjects)) } := by
  obtain ⟨raised, s, hs, hstore⟩ := ArtifactSession.registerArtifactCandidates_of_some
    (s := { artifacts := before.artifacts, store := before.store }) h
  simp only [registerInSession, hs, hstore, List.nil_append]

theorem paths_deleteAll (ids : List String) (store : FileStore String) (id : String) :
    (ids.foldl faults.delete store).paths id =
      if id ∈ ids ∧ faults.deleteRaises id = false then none else store.paths id := by
  induction ids generalizing store with
  | nil => simp
  | cons head ids ih =>
      rw [List.foldl_cons, ih, ArtifactFaults.delete]
      by_cases hid : id ∈ ids ∧ faults.deleteRaises id = false
      · simp [hid]
      · rw [if_neg hid]
        by_cases hraises : faults.deleteRaises head = true
        · have hhead : ¬(id ∈ head :: ids ∧ faults.deleteRaises id = false) := by
            rintro ⟨hmem, hdeletes⟩
            rcases List.mem_cons.mp hmem with rfl | hmem
            · simp [hraises] at hdeletes
            · exact hid ⟨hmem, hdeletes⟩
          rw [if_neg hhead, if_pos hraises]
        · rw [if_neg hraises, FileStore.paths_unlink]
          by_cases heq : id = head
          · subst heq
            simp [hraises]
          · have hiff : id ∈ head :: ids ∧ faults.deleteRaises id = false ↔
                id ∈ ids ∧ faults.deleteRaises id = false := by
              simp [heq]
            rw [if_neg heq, if_neg (mt hiff.mp hid)]

/-- The candidates that carry their content. -/
theorem mem_contentIds {id : String} : id ∈ contentIds items ↔
    ∃ item content, (id, some item) ∈ items ∧ item.source = .bytes content := by
  unfold contentIds
  constructor
  · intro h
    obtain ⟨object, hobject, rfl⟩ := List.mem_map.mp h
    obtain ⟨⟨key, item⟩, hentry, hobject⟩ := List.mem_flatMap.mp hobject
    cases item with
    | none => cases hobject
    | some item =>
        cases hsource : item.source <;> simp only [candidateObjects, hsource] at hobject
        case bytes content =>
          rw [List.mem_singleton] at hobject
          rw [hobject]
          exact ⟨item, content, hentry, hsource⟩
        all_goals cases hobject
  · rintro ⟨item, content, hentry, hsource⟩
    refine List.mem_map.mpr ⟨(id, content), List.mem_flatMap.mpr ⟨_, hentry, ?_⟩, rfl⟩
    simp [candidateObjects, hsource]

theorem contentIds_subset {id : String} (h : id ∈ contentIds items) : id ∈ items.map Prod.fst := by
  obtain ⟨item, -, hentry, -⟩ := mem_contentIds.mp h
  exact List.mem_map_of_mem hentry

theorem contentIds_nodup (h : (items.map Prod.fst).Nodup) : (contentIds items).Nodup := by
  induction items with
  | nil => exact List.nodup_nil
  | cons entry items ih =>
      rw [List.map_cons, List.nodup_cons] at h
      have hrest := ih h.2
      obtain ⟨id, _ | item⟩ := entry
      · exact hrest
      · have hcons : contentIds ((id, some item) :: items) =
            (candidateObjects (id, some item)).map Prod.fst ++ contentIds items := by
          simp [contentIds]
        rw [hcons]
        simp only [candidateObjects]
        split
        · exact List.nodup_cons.mpr ⟨fun hmem ↦ h.1 (contentIds_subset hmem), hrest⟩
        · exact hrest
        · exact hrest
        · exact hrest

theorem contentIds_append (items items' : List CandidateEntry) :
    contentIds (items ++ items') = contentIds items ++ contentIds items' := by
  simp [contentIds]

/-- The stored objects leave nothing only if there is none. -/
theorem contentIds_eq_nil_of_nothing {ids : List String} {s : ArtifactStores}
    (hstore : before.store.Wf) (hnodup : (contentIds items).Nodup) (hids : contentIds items ⊆ ids)
    (hs : s.store = before.store.putAll (items.flatMap candidateObjects))
    (hnothing : s.NothingOf ids) : contentIds items = [] := by
  rw [List.eq_nil_iff_forall_not_mem]
  intro id hid
  obtain ⟨⟨key, content⟩, hobject, rfl⟩ := List.mem_map.mp hid
  have hcontent := FileStore.content_putAll hstore hnodup hobject
  rw [← hs, (hnothing key (hids hid)).2] at hcontent
  cases hcontent

/-- No candidate of the call has a row, so that none of them asks for one. -/
theorem contentIds_eq_nil_of_registered {s : ArtifactStores}
    (hregistered : ∀ entry ∈ items, s.Registered entry)
    (hunused : before.NothingOf (items.map Prod.fst)) (hrows : s.artifacts = before.artifacts) :
    contentIds items = [] := by
  rw [List.eq_nil_iff_forall_not_mem]
  intro id hid
  have hunused := (hunused id (contentIds_subset hid)).1
  obtain ⟨item, content, hentry, hsource⟩ := mem_contentIds.mp hid
  have hentry := hregistered _ hentry
  simp only [ArtifactStores.Registered, hsource] at hentry
  obtain ⟨⟨row, hrow, hid⟩, -⟩ := hentry
  rw [hrows] at hrow
  exact hunused row hrow hid

variable (env workflowRunId producer) in
/-- Without a failure every candidate is registered. -/
theorem registered_of_none (hstore : before.store.Wf) (hnodup : (items.map Prod.fst).Nodup)
    {s : ArtifactStores}
    (hrows : s.artifacts =
      before.artifacts ++ items.flatMap (candidateRows env workflowRunId producer))
    (hs : s.store = before.store.putAll (items.flatMap candidateObjects)) :
    ∀ entry ∈ items, s.Registered entry := by
  rintro ⟨id, _ | item⟩ hentry
  · trivial
  · have hrow {row : Artifact} (hrow : row ∈ candidateRows env workflowRunId producer (id, some item))
        (hid : row.id = id) : ∃ row ∈ s.artifacts, row.id = id := by
      refine ⟨row, ?_, hid⟩
      rw [hrows]
      exact List.mem_append_right _ (List.mem_flatMap.mpr ⟨_, hentry, hrow⟩)
    simp only [ArtifactStores.Registered]
    split
    · rename_i content hsource
      refine ⟨hrow (by rw [candidateRows, hsource]; exact List.mem_singleton_self _) rfl, ?_⟩
      rw [hs]
      apply FileStore.content_putAll hstore (contentIds_nodup hnodup)
      exact List.mem_flatMap.mpr ⟨_, hentry, by simp [candidateObjects, hsource]⟩
    · rename_i uri hsource
      exact hrow (by rw [candidateRows, hsource]; exact List.mem_singleton_self _) rfl
    · trivial
    · trivial

/-- After a failure nothing remains exactly when it has been undone. -/
theorem nothingOf_leaves_iff (hstore : before.store.Wf) (hfresh : before.Fresh items)
    (h : firstFailure env faults workflowRunId producer before.artifacts items =
      some (earlier, entry, failure)) :
    ArtifactStores.NothingOf
        { before with
          store := failure.leaves faults (contentIds earlier) entry
            (before.store.putAll (earlier.flatMap candidateObjects)) }
        (items.map Prod.fst) ↔
      failure.Undone faults earlier entry := by
  obtain ⟨later, rfl⟩ := firstFailure_split h
  have hnodup := contentIds_nodup hfresh.nodup
  have hcontent : contentIds (earlier ++ entry :: later) =
      contentIds earlier ++ contentIds [entry] ++ contentIds later := by
    simp [contentIds]
  rw [hcontent] at hnodup
  have hearlier : (contentIds earlier).Nodup := hnodup.of_append_left.of_append_left
  have hids : contentIds earlier ⊆ (earlier ++ entry :: later).map Prod.fst := by
    intro id hid
    apply contentIds_subset
    rw [hcontent]
    simp [hid]
  have hkept {store : FileStore String}
      (hpaths : ∀ id ∈ (earlier ++ entry :: later).map Prod.fst,
        store.paths id = before.store.paths id) :
      ArtifactStores.NothingOf { before with store } ((earlier ++ entry :: later).map Prod.fst) := by
    intro id hid
    obtain ⟨hrows, hnone⟩ := hfresh.unused id hid
    refine ⟨hrows, ?_⟩
    rw [FileStore.content_eq_none_iff] at hnone ⊢
    rw [hpaths id hid, hnone]
  have hnone (hempty : contentIds earlier = []) :
      before.store.putAll (earlier.flatMap candidateObjects) = before.store := by
    rw [List.map_eq_nil_iff.mp hempty]
    rfl
  cases failure with
  | rejected =>
      constructor
      · intro hnothing
        exact contentIds_eq_nil_of_nothing hstore hearlier hids rfl hnothing
      · intro hempty
        apply hkept
        intro id _
        rw [CandidateFailure.leaves, hnone hempty]
  | write left =>
      have hentry : entry.1 ∉ contentIds earlier := by
        intro hmem
        have hdisjoint := List.disjoint_of_nodup_append hnodup.of_append_left
        exact hdisjoint hmem (by simp [firstFailure_write h])
      constructor
      · intro hnothing
        cases left with
        | none =>
            refine ⟨?_, rfl⟩
            exact contentIds_eq_nil_of_nothing hstore hearlier hids rfl hnothing
        | some left =>
            have hkey := (hnothing entry.1 (by simp)).2
            simp [CandidateFailure.leaves] at hkey
      · rintro ⟨hempty, rfl⟩
        apply hkept
        intro id _
        rw [CandidateFailure.leaves, hnone hempty]
  | insert =>
      have hstored : (before.store.putAll (earlier.flatMap candidateObjects)).putAll
          (candidateObjects entry) =
          before.store.putAll ((earlier ++ [entry]).flatMap candidateObjects) := by
        simp [FileStore.putAll]
      have hlisted : contentIds earlier ++ (candidateObjects entry).map Prod.fst =
          contentIds (earlier ++ [entry]) := by
        simp [contentIds]
      have hboth : (contentIds (earlier ++ [entry])).Nodup := by
        rw [contentIds_append]
        exact hnodup.of_append_left
      simp only [CandidateFailure.leaves, CandidateFailure.Undone, hstored, hlisted]
      constructor
      · intro hnothing id hid
        have hmem : id ∈ (earlier ++ entry :: later).map Prod.fst := by
          have := contentIds_subset hid
          simp only [List.map_append, List.map_cons, List.map_nil, List.mem_append,
            List.mem_cons] at this ⊢
          tauto
        have hleft := (hnothing id hmem).2
        rw [FileStore.content_eq_none_iff, paths_deleteAll] at hleft
        by_contra hraises
        rw [if_neg (by simp [hraises]), ← FileStore.content_eq_none_iff] at hleft
        obtain ⟨⟨key, content⟩, hobject, rfl⟩ := List.mem_map.mp hid
        rw [FileStore.content_putAll hstore hboth hobject] at hleft
        cases hleft
      · intro hdeletes
        apply hkept
        intro id hid
        rw [paths_deleteAll]
        by_cases hmem : id ∈ contentIds (earlier ++ [entry])
        · rw [if_pos ⟨hmem, hdeletes id hmem⟩]
          exact (FileStore.content_eq_none_iff.mp (hfresh.unused id hid).2).symm
        · rw [if_neg (by simp [hmem])]
          exact FileStore.paths_putAll_ne hmem

end

/-- The registration of a Worker is all or nothing exactly when nothing fails, or the
failure finds nothing stored, or it is that of an INSERT, whose rollback deletes what had
been stored. -/
theorem artifact_registration_all_or_nothing_iff (env : WorkerEnv) (faults : ArtifactFaults)
    (workflowRunId : String) (producer : NodeId) (items : List CandidateEntry)
    (before : ArtifactStores) (hstore : before.store.Wf) (hfresh : before.Fresh items) :
    (registerInSession env faults workflowRunId producer items before).AllOrNothing items ↔
      match firstFailure env faults workflowRunId producer before.artifacts items with
      | none => faults.commitRaises = true → contentIds items = []
      | some (earlier, entry, failure) => failure.Undone faults earlier entry := by
  have hnodup := contentIds_nodup hfresh.nodup
  cases hfailure : firstFailure env faults workflowRunId producer before.artifacts items with
  | none =>
      rw [registerInSession_of_none hfailure]
      cases hcommit : faults.commitRaises with
      | false =>
          refine iff_of_true (.inl ?_) (by simp)
          exact registered_of_none env workflowRunId producer hstore hfresh.nodup rfl rfl
      | true =>
          constructor
          · rintro (hregistered | hnothing) -
            · exact contentIds_eq_nil_of_registered hregistered hfresh.unused rfl
            · exact contentIds_eq_nil_of_nothing hstore hnodup (fun _ h ↦ contentIds_subset h) rfl
                hnothing
          · intro hempty
            right
            intro id hid
            rw [List.map_eq_nil_iff.mp (hempty rfl)]
            exact hfresh.unused id hid
  | some failed =>
      obtain ⟨earlier, entry, failure⟩ := failed
      rw [registerInSession_of_some hfailure]
      apply Iff.trans _ (nothingOf_leaves_iff hstore hfresh hfailure)
      constructor
      · rintro (hregistered | hnothing)
        · have hempty := contentIds_eq_nil_of_registered hregistered hfresh.unused rfl
          rw [nothingOf_leaves_iff hstore hfresh hfailure]
          obtain ⟨later, rfl⟩ := firstFailure_split hfailure
          have hparts : contentIds earlier = [] ∧ contentIds [entry] = [] := by
            rw [← List.singleton_append, contentIds_append, contentIds_append,
              List.append_eq_nil_iff, List.append_eq_nil_iff] at hempty
            exact ⟨hempty.1, hempty.2.1⟩
          cases failure with
          | rejected => exact hparts.1
          | write left =>
              have hwritten := firstFailure_write hfailure
              rw [hparts.2] at hwritten
              cases hwritten
          | insert =>
              intro id hid
              rw [contentIds_append, hparts.1, hparts.2] at hid
              cases hid
        · exact hnothing
      · exact .inr

/-- Without redaction; only this URI has a scheme and a host. -/
def exampleWorkerEnv : WorkerEnv :=
  { plainEnv with
    urlparse := fun uri ↦
      if uri = "https://example.com/model.onnx" then some ("https", "example.com")
      else some ("", "")
    artifactMaxBytes := 1024 }

/-- A file, and a link to a model. -/
def patchAndModel : List CandidateEntry :=
  [("a1", some { name := some (.str "patch.diff"), content := some [112, 97, 116, 99, 104] }),
    ("a2", some { name := some (.str "model"), uri := some (.str "https://example.com/model.onnx") })]

theorem fresh_patchAndModel : ArtifactStores.Fresh { artifacts := [], store := {} } patchAndModel where
  nodup := by decide
  unused _ _ := ⟨by simp, rfl⟩

theorem artifact_registration_all_or_nothing_iff_patchAndModel :
    (registerInSession exampleWorkerEnv { flushRaises := (· = "a2") } "run" "node" patchAndModel
      { artifacts := [], store := {} }).AllOrNothing patchAndModel := by
  apply (artifact_registration_all_or_nothing_iff exampleWorkerEnv
    { flushRaises := (· = "a2") } "run" "node" patchAndModel { artifacts := [], store := {} }
    FileStore.wf_empty fresh_patchAndModel).mpr
  intro id _
  rfl

/-- The file has been stored when the candidate after it is rejected. -/
theorem not_artifact_registration_all_or_nothing :
    ¬ ∀ (env : WorkerEnv) (faults : ArtifactFaults) (workflowRunId : String) (producer : NodeId)
      (items : List CandidateEntry) (before : ArtifactStores), before.store.Wf →
        before.Fresh items →
        (registerInSession env faults workflowRunId producer items before).AllOrNothing items := by
  intro h
  have hfresh : ArtifactStores.Fresh { artifacts := [], store := {} }
      [("a1", some { content := some [112, 97, 116, 99, 104] }),
        ("a2", some { localPath := some (.str "/etc/passwd") })] :=
    ⟨by decide, fun _ _ ↦ ⟨by simp, rfl⟩⟩
  rcases h exampleWorkerEnv {} "run" "node" _ _ FileStore.wf_empty hfresh with
    hregistered | hnothing
  · obtain ⟨⟨row, hrow, -⟩, -⟩ := hregistered _ List.mem_cons_self
    cases hrow
  · cases (hnothing "a1" (by decide)).2

end Relayvia
