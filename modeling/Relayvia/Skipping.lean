import Mathlib.Order.FixedPoints
import Mathlib.Order.CompletePartialOrder
import Relayvia.Progress

/-!
# Skip propagation as a least fixed point

The sweeps of `mark_unreachable_condition_nodes`, as the source writes them, and the set of
nodes that they skip.
-/

namespace Relayvia

variable {g g' : WorkflowGraph} {now : Time} {rows start : List NodeRun} {id : NodeId}
  {ids more : List NodeId} {S T : Set NodeId} {e : WorkflowEdge}

/-! ## The sweeps -/

/-- The PENDING node has incoming edges, and none of them is active. -/
def isInactive (g : WorkflowGraph) (rows start : List NodeRun) (id : NodeId) : Bool :=
  statusOf rows id = some .pending ∧ g.incomingEdges id ≠ [] ∧ activeEdges g start id = []

/-- One turn of `for node in graph.nodes`: the row has its status of the moment, the edges
are judged by the statuses at the start of the sweep. -/
def skipNode (g : WorkflowGraph) (now : Time) (start : List NodeRun)
    (s : List NodeRun × List NodeId) (id : NodeId) : List NodeRun × List NodeId :=
  if isInactive g s.1 start id then
    (Table.modify NodeRun.nodeId id
      (fun n ↦ { n with status := .skipped, finishedAt := some now }) s.1, s.2 ++ [id])
  else s

/-- One sweep: the rows after it, and the nodes that it skips. -/
def skipSweep (g : WorkflowGraph) (now : Time) (rows : List NodeRun) :
    List NodeRun × List NodeId :=
  g.nodeIds.foldl (skipNode g now rows) (rows, [])

/-- The sweeps of `while changed` from the rows to the end, with the list that is returned. -/
inductive Skips (g : WorkflowGraph) (now : Time) : List NodeRun → List NodeRun → List NodeId → Prop
  | last {rows : List NodeRun} (h : (skipSweep g now rows).2 = []) :
      Skips g now rows (skipSweep g now rows).1 []
  | sweep {rows rows' : List NodeRun} {skipped : List NodeId} (h : (skipSweep g now rows).2 ≠ [])
      (hrest : Skips g now (skipSweep g now rows).1 rows' skipped) :
      Skips g now rows rows' ((skipSweep g now rows).2 ++ skipped)

/-- The rows after the nodes have been skipped. -/
def skipRows (now : Time) (ids : List NodeId) (rows : List NodeRun) : List NodeRun :=
  rows.map fun n ↦
    if n.nodeId ∈ ids then { n with status := .skipped, finishedAt := some now } else n

theorem skipRows_nil : skipRows now [] rows = rows := by
  simp [skipRows]

theorem skipRows_append :
    skipRows now more (skipRows now ids rows) = skipRows now (ids ++ more) rows := by
  simp only [skipRows, List.map_map]
  refine List.map_congr_left fun n _ ↦ ?_
  by_cases hids : n.nodeId ∈ ids <;> by_cases hmore : n.nodeId ∈ more <;> simp [hids, hmore]

theorem skipRows_congr (h : ∀ id, id ∈ ids ↔ id ∈ more) :
    skipRows now ids rows = skipRows now more rows := by
  simp only [skipRows, h]

theorem map_nodeId_skipRows : (skipRows now ids rows).map NodeRun.nodeId = rows.map NodeRun.nodeId :=
  Table.map_key_map (fun n ↦ by split <;> rfl) rows

theorem findNodeRun_skipRows : findNodeRun (skipRows now ids rows) id =
    (findNodeRun rows id).map fun n ↦
      if n.nodeId ∈ ids then { n with status := .skipped, finishedAt := some now } else n :=
  Table.find?_map (fun n ↦ by split <;> rfl) id rows

theorem findNodeRun_skipRows_of_notMem (h : id ∉ ids) :
    findNodeRun (skipRows now ids rows) id = findNodeRun rows id := by
  rw [findNodeRun_skipRows]
  cases hn : findNodeRun rows id with
  | none => rfl
  | some n =>
      have hid : n.nodeId = id := Table.key_of_find? hn
      rw [Option.map_some, hid, if_neg h]

theorem statusOf_skipRows_of_mem (h : id ∈ ids) (hpending : statusOf rows id = some .pending) :
    statusOf (skipRows now ids rows) id = some .skipped := by
  obtain ⟨n, hn, -⟩ := Option.map_eq_some_iff.mp hpending
  have hid : n.nodeId = id := Table.key_of_find? hn
  rw [statusOf, findNodeRun_skipRows, hn, Option.map_some, hid, if_pos h]
  rfl

theorem modify_skipRows : Table.modify NodeRun.nodeId id
      (fun n ↦ { n with status := .skipped, finishedAt := some now }) (skipRows now ids rows) =
    skipRows now (ids ++ [id]) rows := by
  rw [← skipRows_append]
  simp [Table.modify, skipRows]

variable (g now start ids) in
/-- Every node is visited once, and so with its status at the start of the sweep. -/
theorem foldl_skipNode (todo : List NodeId) (hnodup : todo.Nodup) (hnew : ∀ id ∈ todo, id ∉ ids) :
    todo.foldl (skipNode g now start) (skipRows now ids start, ids) =
      (skipRows now (ids ++ todo.filter (isInactive g start start)) start,
        ids ++ todo.filter (isInactive g start start)) := by
  induction todo generalizing ids with
  | nil => simp
  | cons id todo ih =>
      obtain ⟨hid, hnodup⟩ := List.nodup_cons.mp hnodup
      have hstatus : statusOf (skipRows now ids start) id = statusOf start id := by
        rw [statusOf, findNodeRun_skipRows_of_notMem (hnew id List.mem_cons_self), statusOf]
      have hstatus : isInactive g (skipRows now ids start) start id = isInactive g start start id := by
        rw [isInactive, hstatus, isInactive]
      rw [List.foldl_cons, skipNode, hstatus, List.filter_cons]
      by_cases hinactive : isInactive g start start id = true
      · rw [if_pos hinactive, if_pos hinactive, modify_skipRows, ih _ hnodup]
        · rw [List.append_assoc, List.singleton_append]
        · intro id' hmem hold
          rcases List.mem_append.mp hold with hold | hold
          · exact hnew id' (List.mem_cons_of_mem id hmem) hold
          · exact hid (List.mem_singleton.mp hold ▸ hmem)
      · rw [if_neg hinactive, if_neg hinactive]
        exact ih ids hnodup fun id' hmem ↦ hnew id' (List.mem_cons_of_mem id hmem)

/-- The nodes that one sweep skips. -/
def inactiveNodes (g : WorkflowGraph) (rows : List NodeRun) : List NodeId :=
  g.nodeIds.filter (isInactive g rows rows)

variable (now rows) in
theorem skipSweep_eq (hg : g.nodeIds.Nodup) :
    skipSweep g now rows = (skipRows now (inactiveNodes g rows) rows, inactiveNodes g rows) := by
  have hfold := foldl_skipNode g now rows [] g.nodeIds hg fun _ _ ↦ List.not_mem_nil
  rwa [skipRows_nil] at hfold

theorem Skips.of_nil (hg : g.nodeIds.Nodup) (h : inactiveNodes g rows = []) :
    Skips g now rows rows [] := by
  have hsweep : skipSweep g now rows = (rows, []) := by rw [skipSweep_eq now rows hg, h, skipRows_nil]
  have hlast : (skipSweep g now rows).2 = [] := by rw [hsweep]
  have hskips := Skips.last hlast
  rwa [hsweep] at hskips

theorem Skips.of_ne_nil (hg : g.nodeIds.Nodup) {rows' : List NodeRun}
    (h : inactiveNodes g rows ≠ [])
    (hrest : Skips g now (skipRows now (inactiveNodes g rows) rows) rows' ids) :
    Skips g now rows rows' (inactiveNodes g rows ++ ids) := by
  have hsweep := skipSweep_eq now rows hg
  have hskips : Skips g now rows rows' ((skipSweep g now rows).2 ++ ids) := by
    apply Skips.sweep
    · rwa [hsweep]
    · rwa [hsweep]
  rwa [hsweep] at hskips

/-! ## The loop of the scheduler -/

theorem isUnreachable_eq (hrows : (rows.map NodeRun.nodeId).Nodup) {n : NodeRun} (hn : n ∈ rows) :
    isUnreachable g rows n = true ↔ n.nodeId ∈ inactiveNodes g rows := by
  have hstatus : statusOf rows n.nodeId = some n.status := by
    have hfind : findNodeRun rows n.nodeId = some n := Table.find?_of_mem hrows hn
    rw [statusOf, hfind, Option.map_some]
  simp [isUnreachable_iff, inactiveNodes, isInactive, hstatus]

theorem skipPass_eq (hrows : (rows.map NodeRun.nodeId).Nodup) :
    skipPass g now rows = skipRows now (inactiveNodes g rows) rows := by
  refine List.map_congr_left fun n hn ↦ ?_
  simp only [isUnreachable_eq hrows hn]

theorem any_isUnreachable_iff (hrows : (rows.map NodeRun.nodeId).Nodup) :
    rows.any (isUnreachable g rows) = true ↔ inactiveNodes g rows ≠ [] := by
  rw [List.any_eq_true]
  constructor
  · rintro ⟨n, hn, hskip⟩
    exact List.ne_nil_of_mem ((isUnreachable_eq hrows hn).mp hskip)
  · intro hne
    obtain ⟨id, hid⟩ := List.exists_mem_of_ne_nil _ hne
    have hpending : statusOf rows id = some .pending := by
      have hinactive := (List.mem_filter.mp hid).2
      simp only [isInactive, decide_eq_true_eq] at hinactive
      exact hinactive.1
    obtain ⟨n, hn, -⟩ := Option.map_eq_some_iff.mp hpending
    obtain ⟨hmem, rfl⟩ := (Table.find?_eq_some_iff hrows).mp hn
    exact ⟨n, hmem, (isUnreachable_eq hrows hmem).mpr hid⟩

/-! ## The operator -/

/-- The edge is inactive when the nodes of `S` are skipped. -/
def InactiveEdge (g : WorkflowGraph) (rows : List NodeRun) (S : Set NodeId) (e : WorkflowEdge) :
    Prop :=
  statusOf rows e.source = some .skipped ∨ e.source ∈ S ∨
    ∃ node n selected, g.node? e.source = some node ∧ node.isCondition = true ∧
      findNodeRun rows e.source = some n ∧ n.status = .completed ∧
      n.selectedBranch = some selected ∧ (selected = "true" ∨ selected = "false") ∧
      e.sourceHandle ≠ some selected

theorem InactiveEdge.mono (hST : S ⊆ T) (h : InactiveEdge g rows S e) : InactiveEdge g rows T e := by
  rcases h with hskipped | hmem | hcondition
  · exact .inl hskipped
  · exact .inr (.inl (hST hmem))
  · exact .inr (.inr hcondition)

/-- The PENDING nodes with incoming edges, all of which are inactive when the nodes of `S`
are skipped. -/
def skipStep (g : WorkflowGraph) (rows : List NodeRun) : Set NodeId →o Set NodeId where
  toFun S := {id | id ∈ g.nodeIds ∧ statusOf rows id = some .pending ∧ g.incomingEdges id ≠ [] ∧
    ∀ e ∈ g.incomingEdges id, InactiveEdge g rows S e}
  monotone' _ _ hST _ h := ⟨h.1, h.2.1, h.2.2.1, fun e he ↦ (h.2.2.2 e he).mono hST⟩

theorem mem_skipStep : id ∈ skipStep g rows S ↔ id ∈ g.nodeIds ∧ statusOf rows id = some .pending ∧
    g.incomingEdges id ≠ [] ∧ ∀ e ∈ g.incomingEdges id, InactiveEdge g rows S e :=
  Iff.rfl

theorem sourceState_skipRows (hpending : ∀ id ∈ ids, statusOf rows id = some .pending) :
    sourceState (skipRows now ids rows) id = if id ∈ ids then .skipped else sourceState rows id := by
  by_cases h : id ∈ ids
  · rw [if_pos h]
    exact statusOf_skipped_iff.mp (statusOf_skipRows_of_mem h (hpending id h))
  · rw [if_neg h, sourceState, sourceState, findNodeRun_skipRows_of_notMem h]

theorem edgeIsActive_skipRows (hpending : ∀ id ∈ ids, statusOf rows id = some .pending) :
    edgeIsActive g (skipRows now ids rows) e = false ↔ InactiveEdge g rows {id | id ∈ ids} e := by
  rw [edgeIsActive_eq, sourceState_skipRows hpending, InactiveEdge, Set.mem_ofPred_eq]
  by_cases h : e.source ∈ ids
  · simp [h, activeFrom]
  · rw [if_neg h, statusOf, sourceState]
    cases hn : findNodeRun rows e.source with
    | none => simp [h, activeFrom]
    | some n =>
        cases hstatus : n.status with
        | completed =>
            cases hselected : n.selectedBranch with
            | none => simp [h, hstatus, hselected, activeFrom]
            | some selected =>
                cases hnode : g.node? e.source with
                | none => simp [h, hstatus, hselected, hnode, activeFrom]
                | some node =>
                    simp [h, hstatus, hselected, hnode, activeFrom, or_iff_not_imp_left]
        | _ => simp [h, hstatus, activeFrom]

variable (g now id) in
theorem mem_inactiveNodes_skipRows (hpending : ∀ id ∈ ids, statusOf rows id = some .pending) :
    id ∈ inactiveNodes g (skipRows now ids rows) ↔
      id ∉ ids ∧ id ∈ skipStep g rows {id | id ∈ ids} := by
  have hedges : activeEdges g (skipRows now ids rows) id = [] ↔
      ∀ e ∈ g.incomingEdges id, InactiveEdge g rows {id | id ∈ ids} e := by
    rw [activeEdges, List.filter_eq_nil_iff]
    simp only [Bool.not_eq_true, edgeIsActive_skipRows hpending]
  have hstatus : statusOf (skipRows now ids rows) id = some .pending ↔
      id ∉ ids ∧ statusOf rows id = some .pending := by
    by_cases h : id ∈ ids
    · simp [h, statusOf_skipRows_of_mem h (hpending id h)]
    · simp [h, statusOf, findNodeRun_skipRows_of_notMem h]
  simp only [inactiveNodes, isInactive, List.mem_filter, decide_eq_true_eq, hstatus, hedges,
    mem_skipStep]
  tauto

/-! ## The least fixed point -/

/-- Nodes that the sweeps have skipped so far. -/
structure SkippedSoFar (g : WorkflowGraph) (rows : List NodeRun) (ids : List NodeId) : Prop where
  nodup : ids.Nodup
  pending : ∀ id ∈ ids, statusOf rows id = some .pending
  below : {id | id ∈ ids} ≤ (skipStep g rows).lfp

theorem SkippedSoFar.sweep (h : SkippedSoFar g rows ids) (hg : g.nodeIds.Nodup) :
    SkippedSoFar g rows (ids ++ inactiveNodes g (skipRows now ids rows)) := by
  have hnew := fun id ↦ mem_inactiveNodes_skipRows g now id h.pending
  refine ⟨?_, ?_, ?_⟩
  · refine List.nodup_append.mpr ⟨h.nodup, hg.filter _, ?_⟩
    rintro id hid _ hmem rfl
    exact ((hnew id).mp hmem).1 hid
  · intro id hid
    rcases List.mem_append.mp hid with hid | hid
    · exact h.pending id hid
    · exact (mem_skipStep.mp ((hnew id).mp hid).2).2.1
  · intro id hid
    rcases List.mem_append.mp hid with hid | hid
    · exact h.below hid
    · exact (skipStep g rows).map_le_lfp h.below ((hnew id).mp hid).2

theorem skipLoop_skips (hg : g.nodeIds.Nodup) (hrows : (rows.map NodeRun.nodeId).Nodup) {k : ℕ}
    (h : SkippedSoFar g rows ids)
    (hk : (skipRows now ids rows).countP (·.status = .pending) < k) :
    ∃ more, Skips g now (skipRows now ids rows) (skipLoop g now k (skipRows now ids rows)) more ∧
      skipLoop g now k (skipRows now ids rows) = skipRows now (ids ++ more) rows ∧
      SkippedSoFar g rows (ids ++ more) ∧
      inactiveNodes g (skipRows now (ids ++ more) rows) = [] := by
  induction k generalizing ids with
  | zero => omega
  | succ k ih =>
      have hrows' : ((skipRows now ids rows).map NodeRun.nodeId).Nodup := by
        rwa [map_nodeId_skipRows]
      rw [skipLoop]
      by_cases hany : (skipRows now ids rows).any (isUnreachable g (skipRows now ids rows)) = true
      · have hsofar : SkippedSoFar g rows (ids ++ inactiveNodes g (skipRows now ids rows)) :=
          h.sweep hg
        have hpass : (skipPass g now (skipRows now ids rows)).countP (·.status = .pending) <
            (skipRows now ids rows).countP (·.status = .pending) :=
          skipPass_pending_lt (List.any_eq_true.mp hany)
        rw [skipPass_eq hrows', skipRows_append] at hpass
        rw [if_pos hany, skipPass_eq hrows', skipRows_append]
        obtain ⟨more, hskips, hloop, hsofar, hnone⟩ := ih hsofar (by omega)
        refine ⟨inactiveNodes g (skipRows now ids rows) ++ more, ?_, ?_, ?_, ?_⟩
        · apply Skips.of_ne_nil hg ((any_isUnreachable_iff hrows').mp hany)
          rwa [skipRows_append]
        · rw [hloop, List.append_assoc]
        · rwa [← List.append_assoc]
        · rwa [← List.append_assoc]
      · have hnone : inactiveNodes g (skipRows now ids rows) = [] :=
          not_not.mp (mt (any_isUnreachable_iff hrows').mpr hany)
        rw [if_neg hany]
        refine ⟨[], .of_nil hg hnone, ?_, ?_, ?_⟩
        · rw [List.append_nil]
        · rwa [List.append_nil]
        · rwa [List.append_nil]

variable (now) in
/-- The rows and the list that the function leaves. -/
theorem markUnreachable_skips (hg : g.nodeIds.Nodup) (hrows : (rows.map NodeRun.nodeId).Nodup) :
    ∃ skipped, Skips g now rows (markUnreachableConditionNodes g now rows) skipped ∧
      markUnreachableConditionNodes g now rows = skipRows now skipped rows ∧
      SkippedSoFar g rows skipped ∧ inactiveNodes g (skipRows now skipped rows) = [] := by
  have hnone : SkippedSoFar g rows [] := ⟨List.nodup_nil, by simp, by simp⟩
  have hcount : (skipRows now [] rows).countP (·.status = .pending) < rows.length + 1 := by
    rw [skipRows_nil]
    exact Nat.lt_succ_of_le List.countP_le_length
  have hloop := skipLoop_skips hg hrows hnone hcount
  simp only [skipRows_nil, List.nil_append] at hloop
  exact hloop

/-- When no sweep finds another node, the skipped nodes are the least fixed point. -/
theorem SkippedSoFar.eq_lfp (h : SkippedSoFar g rows ids)
    (hnone : inactiveNodes g (skipRows now ids rows) = []) :
    {id | id ∈ ids} = (skipStep g rows).lfp := by
  refine le_antisymm h.below ((skipStep g rows).lfp_le fun id hid ↦ ?_)
  by_contra hnew
  have hmem := (mem_inactiveNodes_skipRows g now id h.pending).mpr ⟨hnew, hid⟩
  rw [hnone] at hmem
  exact List.not_mem_nil hmem

/-! ## The order of nodes and edges -/

theorem inactiveEdge_perm {g g' : ParsedGraph} (hnodes : g'.nodes.Perm g.nodes)
    (h : InactiveEdge g.toWorkflowGraph rows S e) : InactiveEdge g'.toWorkflowGraph rows S e := by
  rcases h with hskipped | hmem | ⟨node, n, selected, hnode, hcondition, hn⟩
  · exact .inl hskipped
  · exact .inr (.inl hmem)
  · obtain ⟨hmem, hid⟩ := ParsedGraph.node?_eq_some_iff.mp hnode
    have hnode' := ParsedGraph.node?_eq_some_iff.mpr ⟨hnodes.mem_iff.mpr hmem, hid⟩
    exact .inr (.inr ⟨node, n, selected, hnode', hcondition, hn⟩)

theorem skipStep_perm {g g' : ParsedGraph} (hnodes : g'.nodes.Perm g.nodes)
    (hedges : g'.edges.Perm g.edges) :
    skipStep g'.toWorkflowGraph rows = skipStep g.toWorkflowGraph rows := by
  ext S id
  have hincoming : (g'.incomingEdges id).Perm (g.incomingEdges id) := hedges.filter _
  have hnil : g'.incomingEdges id ≠ [] ↔ g.incomingEdges id ≠ [] :=
    not_congr ⟨fun h ↦ (h ▸ hincoming).nil_eq.symm, fun h ↦ (h ▸ hincoming).eq_nil⟩
  have hedge (e : WorkflowEdge) : InactiveEdge g'.toWorkflowGraph rows S e ↔
      InactiveEdge g.toWorkflowGraph rows S e :=
    ⟨inactiveEdge_perm hnodes.symm, inactiveEdge_perm hnodes⟩
  have hids : id ∈ g'.nodeIds ↔ id ∈ g.nodeIds := (hnodes.map WorkflowNode.id).mem_iff
  simp only [mem_skipStep, hids, hnil, hincoming.mem_iff, hedge]

/-- `mark_unreachable_condition_nodes` ends, changes PENDING nodes only and to SKIPPED only,
and skips the least set that contains every PENDING node all of whose incoming edges are
inactive, whatever the order of nodes and edges; a second call skips nothing. -/
theorem skip_propagation_least (g : ParsedGraph) (now : Time) (rows : List NodeRun)
    (hrows : (rows.map NodeRun.nodeId).Nodup) :
    ∃ skipped, Skips g.toWorkflowGraph now rows
        (markUnreachableConditionNodes g.toWorkflowGraph now rows) skipped ∧
      markUnreachableConditionNodes g.toWorkflowGraph now rows = skipRows now skipped rows ∧
      skipped.Nodup ∧ (∀ id ∈ skipped, statusOf rows id = some .pending) ∧
      IsLeast {S | skipStep g.toWorkflowGraph rows S ⊆ S} {id | id ∈ skipped} ∧
      (∀ g' : ParsedGraph, g'.nodes.Perm g.nodes → g'.edges.Perm g.edges →
        ∃ skipped', skipped'.Perm skipped ∧
          Skips g'.toWorkflowGraph now rows (skipRows now skipped rows) skipped') ∧
      Skips g.toWorkflowGraph now (skipRows now skipped rows) (skipRows now skipped rows) [] := by
  obtain ⟨skipped, hskips, hmark, hsofar, hnone⟩ :=
    markUnreachable_skips now g.nodeIds_nodup hrows
  have hlfp := hsofar.eq_lfp hnone
  refine ⟨skipped, hskips, hmark, hsofar.nodup, hsofar.pending, ?_, ?_, .of_nil g.nodeIds_nodup hnone⟩
  · rw [hlfp]
    exact (skipStep g.toWorkflowGraph rows).isLeast_lfp_le
  · intro g' hnodes hedges
    obtain ⟨skipped', hskips', hmark', hsofar', hnone'⟩ :=
      markUnreachable_skips now g'.nodeIds_nodup hrows
    have hlfp' := hsofar'.eq_lfp hnone'
    rw [skipStep_perm hnodes hedges, ← hlfp] at hlfp'
    have hmem : ∀ id, id ∈ skipped' ↔ id ∈ skipped := Set.ext_iff.mp hlfp'
    refine ⟨skipped', (List.perm_ext_iff_of_nodup hsofar'.nodup hsofar.nodup).mpr hmem, ?_⟩
    rwa [hmark', skipRows_congr hmem] at hskips'

/-- The Condition of `branchGraph` has selected "true". -/
def selectedRows : List NodeRun :=
  branchGraph.nodes.map fun node ↦
    if node.id = "in" then { createNodeRun [] node with status := .completed }
    else if node.id = "check" then
      { createNodeRun [] node with
        status := .completed, output := some [("selected_branch", .str "true")] }
    else createNodeRun [] node

theorem skip_propagation_least_selectedRows : ∃ skipped,
    Skips branchGraph.toWorkflowGraph 0 selectedRows (skipRows 0 skipped selectedRows) skipped ∧
      IsLeast {S | skipStep branchGraph.toWorkflowGraph selectedRows S ⊆ S} {id | id ∈ skipped} ∧
      statusOf (skipRows 0 skipped selectedRows) "no" = some .skipped ∧
      statusOf (skipRows 0 skipped selectedRows) "out" = some .pending := by
  obtain ⟨skipped, hskips, hmark, -, -, hleast, -⟩ :=
    skip_propagation_least branchGraph 0 selectedRows (by decide)
  rw [hmark] at hskips
  refine ⟨skipped, hskips, hleast, ?_, ?_⟩
  · rw [← hmark]
    rfl
  · rw [← hmark]
    rfl

end Relayvia
