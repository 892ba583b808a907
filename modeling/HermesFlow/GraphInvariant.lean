import HermesFlow.GraphEdges
import Mathlib.Data.List.Nodup

/-!
# The indexes of a parsed graph

A graph keeps six redundant indexes of its nodes. All of them agree with the
nodes for every accepted flow, apart from the map of ids: it is overwritten
where an id is repeated.
-/

namespace HermesFlow.Infra

/-- The positions of a kind, in order. -/
def positions (kinds : List NodeKind) (kind : NodeKind) : List ℕ :=
  (List.range kinds.length).filter fun p => kinds[p]? = some kind

/-- One more node. -/
theorem positions_concat (kinds : List NodeKind) (kind last : NodeKind) :
    positions (kinds ++ [last]) kind =
      if last = kind then positions kinds kind ++ [kinds.length] else positions kinds kind := by
  have hbefore : (List.range kinds.length).filter (fun p => (kinds ++ [last])[p]? = some kind) =
      positions kinds kind := by
    refine List.filter_congr fun p hp => ?_
    rw [List.getElem?_append_left (List.mem_range.mp hp)]
  rw [positions, List.length_append, List.length_singleton, List.range_succ, List.filter_append,
    hbefore]
  by_cases hlast : last = kind
  · rw [if_pos hlast, List.filter_cons_of_pos (by simp [hlast]), List.filter_nil]
  · rw [if_neg hlast, List.filter_cons_of_neg (by simp [hlast]), List.filter_nil, List.append_nil]

/-- A position of a kind is one where the kind is. -/
theorem mem_positions {kinds : List NodeKind} {kind : NodeKind} {p : ℕ} :
    p ∈ positions kinds kind ↔ kinds[p]? = some kind := by
  rw [positions, List.mem_filter, List.mem_range, decide_eq_true_eq]
  exact and_iff_right_of_imp fun hp => (List.getElem?_eq_some_iff.mp hp).1

/-- The kinds of the nodes. -/
def Graph.kinds (graph : Graph) : List NodeKind := graph.nodes.map Node.kind

/-- The pointers of a node. -/
def Node.Points (node : Node) (p : ℕ) : Prop :=
  node.target = some p ∨ node.options = some p ∨ p ∈ node.inputs

/-- The pointers of a graph. -/
def Graph.Points (graph : Graph) (p : ℕ) : Prop :=
  graph.startNode = some p ∨ graph.clientsNode = some p ∨ (∃ id, graph.nodeMap id = some p) ∨
    p ∈ graph.fileNodes ∨ p ∈ graph.mixerNodes ∨ ∃ node ∈ graph.nodes, node.Points p

/-- The representation invariant. -/
structure Represented (graph : Graph) : Prop where
  /-- There is a start node. -/
  start : graph.startNode.isSome = true
  /-- Every pointer is to a node that the graph owns. -/
  owned : ∀ p, graph.Points p → p < graph.nodes.length
  /-- The file inputs are indexed. -/
  fileNodes : graph.fileNodes = positions graph.kinds .fileInput
  /-- The mixers are indexed. -/
  mixerNodes : graph.mixerNodes = positions graph.kinds .mixer
  /-- At most one node is a `ClientsNode`, and `clients_node` is it. -/
  clientsNode : ∀ p, graph.clientsNode = some p ↔ graph.kinds[p]? = some .clients
  /-- The id of a node leads to the node. -/
  ids : ∀ p node, graph.nodes[p]? = some node → graph.nodeMap node.id = some p

/-- The graph after a part of the nodes, with their ids. -/
structure Indexed (ids : List String) (graph : Graph) : Prop where
  /-- The nodes have these ids. -/
  nodeIds : graph.nodes.map Node.id = ids
  /-- No node points anywhere. -/
  unconnected : ∀ node ∈ graph.nodes, node.target = none ∧ node.data.Unconnected
  /-- The start is not set yet. -/
  startNode : graph.startNode = none
  /-- An id leads to a node that has it. -/
  mapped : ∀ id p, graph.nodeMap id = some p → ids[p]? = some id
  /-- Every id leads to a node. -/
  found : ∀ id ∈ ids, ∃ p, graph.nodeMap id = some p
  /-- The file inputs are indexed. -/
  fileNodes : graph.fileNodes = positions graph.kinds .fileInput
  /-- The mixers are indexed. -/
  mixerNodes : graph.mixerNodes = positions graph.kinds .mixer
  /-- The clients' node is the one of that kind. -/
  clientsNode : ∀ p, graph.clientsNode = some p ↔ graph.kinds[p]? = some .clients

/-- The empty graph is indexed. -/
theorem Indexed.empty : Indexed [] Graph.empty where
  nodeIds := rfl
  unconnected := nofun
  startNode := rfl
  mapped := nofun
  found := nofun
  fileNodes := rfl
  mixerNodes := rfl
  clientsNode := fun p => by
    have hnone : Graph.empty.kinds[p]? = none := List.getElem?_nil
    rw [hnone]
    exact ⟨nofun, nofun⟩

/-- The only node of a kind, with one more node. -/
theorem only_concat {kinds : List NodeKind} {kind last : NodeKind} {only : Option ℕ}
    (h : ∀ p, only = some p ↔ kinds[p]? = some kind) (hlast : last = kind → only = none) (p : ℕ) :
    (if last = kind then some kinds.length else only) = some p ↔
      (kinds ++ [last])[p]? = some kind := by
  rw [List.getElem?_append]
  by_cases hkind : last = kind
  · -- no node before it is of the kind
    have hnone : ∀ q : ℕ, kinds[q]? ≠ some kind := by
      intro q hq
      rw [← h q, hlast hkind] at hq
      cases hq
    rw [if_pos hkind, hkind]
    split
    · rename_i hp
      constructor
      · intro heq
        obtain rfl := Option.some.inj heq
        omega
      · exact fun heq => absurd heq (hnone p)
    · rename_i hp
      rw [List.getElem?_singleton]
      split
      · rename_i hzero
        exact ⟨fun _ => rfl, fun _ => congrArg some (by omega)⟩
      · rename_i hzero
        constructor
        · intro heq
          obtain rfl := Option.some.inj heq
          omega
        · intro heq
          cases heq
  · rw [if_neg hkind, h]
    split
    · exact Iff.rfl
    · rename_i hp
      rw [List.getElem?_eq_none (Nat.le_of_not_lt hp), List.getElem?_singleton]
      split
      · constructor
        · intro heq
          cases heq
        · exact fun heq => absurd (Option.some.inj heq) hkind
      · exact Iff.rfl

/-- A node that is added keeps the indexes. -/
theorem Indexed.addNode {ids : List String} {graph : Graph} (h : Indexed ids graph) {node : Node}
    (hnode : node.target = none ∧ node.data.Unconnected)
    (hclients : node.kind = .clients → graph.clientsNode = none) :
    Indexed (ids ++ [node.id]) (graph.addNode node) := by
  have hlength : graph.kinds.length = graph.nodes.length := List.length_map _
  have hids : ids.length = graph.nodes.length := by rw [← h.nodeIds, List.length_map]
  have hkinds : (graph.addNode node).kinds = graph.kinds ++ [node.kind] := List.map_append ..
  refine ⟨?_, ?_, h.startNode, fun id p hp => ?_, fun id hid => ?_, ?_, ?_, fun p => ?_⟩
  · rw [← h.nodeIds]
    exact List.map_append ..
  · intro other hother
    rcases List.mem_append.mp hother with hbefore | hnew
    · exact h.unconnected other hbefore
    · obtain rfl := List.mem_singleton.mp hnew
      exact hnode
  · simp only [Graph.addNode, Function.update_apply] at hp
    split at hp
    · rename_i hid
      cases hp
      rw [← hids, List.getElem?_concat_length, hid]
    · have hbefore := h.mapped id p hp
      rw [List.getElem?_append_left (List.getElem?_eq_some_iff.mp hbefore).1, hbefore]
  · simp only [Graph.addNode, Function.update_apply]
    split
    · exact ⟨_, rfl⟩
    · rename_i hne
      rcases List.mem_append.mp hid with hbefore | hnew
      · exact h.found id hbefore
      · exact absurd (List.mem_singleton.mp hnew) hne
  · rw [hkinds, positions_concat, ← h.fileNodes, hlength]
    rfl
  · rw [hkinds, positions_concat, ← h.mixerNodes, hlength]
    rfl
  · rw [hkinds, ← only_concat h.clientsNode hclients, hlength]
    rfl

/-- The id of an element of `nodes`. -/
def nodeId (v : Json) : Option String := v.asObject.bind (stringAt · "id")

/-- A turn of the loop of `parse_nodes` that accepts its node. -/
theorem parseNode_ok {lib : Library} {graph graph' : Graph} {v : Json}
    (h : parseNode lib graph v = .ok graph') :
    ∃ node : Node, nodeId v = some node.id ∧ (node.target = none ∧ node.data.Unconnected) ∧
      (node.kind = .clients → graph.clientsNode = none) ∧ graph' = graph.addNode node := by
  unfold parseNode at h
  obtain ⟨obj, hobj, h⟩ := bind_ok h
  obtain ⟨id, hid, h⟩ := bind_ok h
  obtain ⟨type, -, h⟩ := bind_ok h
  obtain ⟨dataObj, -, h⟩ := bind_ok h
  obtain ⟨data, hdata, h⟩ := bind_ok h
  split at h
  · cases h
  · rename_i hsingle
    cases h
    refine ⟨⟨id, none, data⟩, ?_, ⟨rfl, createNode_unconnected hdata⟩, fun hkind => ?_, rfl⟩
    · rw [nodeId, objectOr_ok hobj, Option.bind_some, requireString_ok hid]
    · by_contra hsome
      exact hsingle ⟨hkind, Option.isSome_iff_ne_none.mpr hsome⟩

/-- The nodes that `parse_nodes` accepts. -/
theorem parseNodes_ok {lib : Library} {graph : Graph} {nodesArr : List Json}
    (h : parseNodes lib .empty nodesArr = .ok graph) :
    Indexed (nodesArr.filterMap nodeId) graph := by
  have hstep : ∀ done b v b', Indexed (done.filterMap nodeId) b → parseNode lib b v = .ok b' →
      Indexed ((done ++ [v]).filterMap nodeId) b' := by
    intro done b v b' hb hparse
    obtain ⟨node, hid, hnode, hclients, rfl⟩ := parseNode_ok hparse
    have happend : (done ++ [v]).filterMap nodeId = done.filterMap nodeId ++ [node.id] := by
      rw [List.filterMap_append, List.filterMap_cons, hid, List.filterMap_nil]
    rw [happend]
    exact hb.addNode hnode hclients
  have hstart : Indexed (([] : List Json).filterMap nodeId) .empty := Indexed.empty
  exact foldlM_ok hstep hstart h

/-- An array of the flow. -/
def flowArray (o : JsonObject) (key : String) : List Json :=
  (((o.lookup "flow").bind Json.asObject).bind fun flow =>
    (flow.lookup key).bind Json.asArray).getD []

/-- The ids of the nodes of the flow. -/
def flowIds (o : JsonObject) : List String := (flowArray o "nodes").filterMap nodeId

/-- The edges of the flow, as pairs of nodes. -/
def flowEdges (graph : Graph) (o : JsonObject) : List (ℕ × ℕ) :=
  (flowArray o "edges").filterMap (edgeEnds graph.nodeMap)

/-- The start that is set is the node of its id. -/
theorem setStartNode_ok {lib : Library} {flow : JsonObject} {graph graph' : Graph}
    (h : setStartNode lib flow graph = .ok graph') :
    ∃ id p, graph.nodeMap id = some p ∧ graph' = { graph with startNode := some p } := by
  unfold setStartNode at h
  obtain ⟨startObj, -, h⟩ := bind_ok h
  obtain ⟨id, -, h⟩ := bind_ok h
  split at h
  · cases h
  · rename_i p hp
    cases h
    exact ⟨id, p, hp, rfl⟩

/-- The nodes of an accepted edge are owned. -/
theorem owned_of_mem_flowEdges {graph : Graph} {o : JsonObject} {ids : List String}
    (hmapped : ∀ id p, graph.nodeMap id = some p → ids[p]? = some id) {edge : ℕ × ℕ}
    (hedge : edge ∈ flowEdges graph o) : edge.1 < ids.length ∧ edge.2 < ids.length := by
  obtain ⟨v, -, hends⟩ := List.mem_filterMap.mp hedge
  obtain ⟨sourceId, targetId, hsource, htarget⟩ := edgeEnds_mem hends
  exact ⟨(List.getElem?_eq_some_iff.mp (hmapped _ _ hsource)).1,
    (List.getElem?_eq_some_iff.mp (hmapped _ _ htarget)).1⟩

/-- What is known of every graph that is accepted. -/
structure Parsed (o : JsonObject) (graph : Graph) : Prop where
  /-- The nodes are the flow's, in order. -/
  nodeIds : graph.nodes.map Node.id = flowIds o
  /-- The start is the node of an id. -/
  start : ∃ id p, graph.nodeMap id = some p ∧ graph.startNode = some p
  /-- An id leads to a node that has it. -/
  mapped : ∀ id p, graph.nodeMap id = some p → (flowIds o)[p]? = some id
  /-- Every id leads to a node. -/
  found : ∀ id ∈ flowIds o, ∃ p, graph.nodeMap id = some p
  /-- The file inputs are indexed. -/
  fileNodes : graph.fileNodes = positions graph.kinds .fileInput
  /-- The mixers are indexed. -/
  mixerNodes : graph.mixerNodes = positions graph.kinds .mixer
  /-- The clients' node is the one of that kind. -/
  clientsNode : ∀ p, graph.clientsNode = some p ↔ graph.kinds[p]? = some .clients
  /-- Every edge names two nodes. -/
  edges : (flowArray o "edges").map (edgeEnds graph.nodeMap) = (flowEdges graph o).map some
  /-- The pointers of a node are those of its edges. -/
  target : ∀ p node, graph.nodes[p]? = some node →
    node.target = (wiredTo (kindAt graph.nodes) (flowEdges graph o) p).getLast?
  /-- The options of a node are the last ones that an edge gives it. -/
  options : ∀ p node, graph.nodes[p]? = some node →
    node.options = (optionSources (kindAt graph.nodes) (flowEdges graph o) p).getLast?
  /-- The inputs of a node are those that the edges give it. -/
  inputs : ∀ p node, graph.nodes[p]? = some node →
    node.inputs = inputSources (kindAt graph.nodes) (flowEdges graph o) p

/-- A node without pointers. -/
theorem Node.options_inputs_unconnected {node : Node} (h : node.data.Unconnected) :
    node.options = none ∧ node.inputs = [] := by
  obtain ⟨id, target, data⟩ := node
  cases data with
  | fileInput name path options => exact ⟨h, rfl⟩
  | mixer inputs => exact ⟨rfl, h⟩
  | _ => exact ⟨rfl, rfl⟩

/-- The kinds follow from the labels. -/
theorem kinds_eq_of_labels {graph graph' : Graph}
    (h : graph'.nodes.map Node.label = graph.nodes.map Node.label) : graph'.kinds = graph.kinds := by
  have hkinds := congrArg (List.map Prod.snd) h
  rw [List.map_map, List.map_map] at hkinds
  exact hkinds

/-- The stages of an accepted text: the nodes, the start node and the edges. -/
theorem parseGraph_stages {lib : Library} {o : JsonObject} {graph : Graph}
    (h : parseGraph lib o = .ok graph) :
    ∃ parsed startId start edges, parseNodes lib .empty (flowArray o "nodes") = .ok parsed ∧
      parsed.nodeMap startId = some start ∧
      (flowArray o "edges").map (edgeEnds parsed.nodeMap) = edges.map some ∧
      Wired { parsed with startNode := some start } edges graph := by
  unfold parseGraph at h
  obtain ⟨flow, hflow, h⟩ := bind_ok h
  obtain ⟨nodesArr, hnodesArr, h⟩ := bind_ok h
  obtain ⟨parsed, hparsed, h⟩ := bind_ok h
  obtain ⟨started, hstarted, h⟩ := bind_ok h
  obtain ⟨edgesArr, hedgesArr, h⟩ := bind_ok h
  obtain ⟨startId, start, hstart, rfl⟩ := setStartNode_ok hstarted
  have harray : ∀ {key elements}, requireArray lib flow key = .ok elements →
      flowArray o key = elements := by
    intro key elements hkey
    have hobject : (o.lookup "flow").bind Json.asObject = some flow := requireJson_ok hflow
    have helements : (flow.lookup key).bind Json.asArray = some elements := requireJson_ok hkey
    rw [flowArray, hobject, Option.bind_some, helements, Option.getD_some]
  have hnodes := parseNodes_ok hparsed
  have howned : ∀ id p, parsed.nodeMap id = some p → p < parsed.nodes.length := fun id p hmap => by
    have hlt := (List.getElem?_eq_some_iff.mp (hnodes.mapped id p hmap)).1
    rwa [← hnodes.nodeIds, List.length_map] at hlt
  obtain ⟨edges, hedges, hwired⟩ := parseEdges_ok h howned
  rw [harray hnodesArr, harray hedgesArr]
  exact ⟨parsed, startId, start, edges, hparsed, hstart, hedges, hwired⟩

/-- Every accepted graph is as its text says. -/
theorem parseGraph_ok {lib : Library} {o : JsonObject} {graph : Graph}
    (h : parseGraph lib o = .ok graph) : Parsed o graph := by
  obtain ⟨parsed, startId, start, edges, hparsed, hstart, hedges, hwired⟩ := parseGraph_stages h
  have hnodes : Indexed (flowIds o) parsed := parseNodes_ok hparsed
  have hmap : graph.nodeMap = parsed.nodeMap := by rw [hwired.indexes]
  have hflowEdges : flowEdges graph o = edges := by
    have hends := congrArg (List.filterMap id) hedges
    rw [List.filterMap_map, List.filterMap_map] at hends
    rw [flowEdges, hmap]
    exact hends.trans (List.filterMap_some ..)
  have hkinds : graph.kinds = parsed.kinds := kinds_eq_of_labels hwired.labels
  have hconnected : ∀ p node, graph.nodes[p]? = some node →
      ∃ before, before.target = none ∧ before.data.Unconnected ∧
        Connected (kindAt graph.nodes) (flowEdges graph o) p before node := by
    intro p node hnode
    rw [hwired.nodes] at hnode
    obtain ⟨before, hbefore, rfl⟩ := Option.map_eq_some_iff.mp hnode
    obtain ⟨htarget, hdata⟩ := hnodes.unconnected before (List.mem_of_getElem? hbefore)
    refine ⟨before, htarget, hdata, ?_⟩
    rw [hflowEdges, hwired.kinds]
    refine connected_connectAll _ edges p ?_
    rw [kindAt, hbefore, Option.map_some]
  refine ⟨?_, ⟨startId, start, by rw [hmap, hstart], by rw [hwired.indexes]⟩, ?_, ?_, ?_, ?_, ?_, ?_,
    fun p node hnode => ?_, fun p node hnode => ?_, fun p node hnode => ?_⟩
  · have hids := congrArg (List.map Prod.fst) hwired.labels
    rw [List.map_map, List.map_map] at hids
    exact hids.trans hnodes.nodeIds
  · rw [hmap]
    exact hnodes.mapped
  · rw [hmap]
    exact hnodes.found
  · rw [hkinds, ← hnodes.fileNodes, hwired.indexes]
  · rw [hkinds, ← hnodes.mixerNodes, hwired.indexes]
  · rw [hkinds, hwired.indexes]
    exact hnodes.clientsNode
  · rw [hflowEdges, hmap]
    exact hedges
  all_goals obtain ⟨before, htarget, hdata, hnow⟩ := hconnected p node hnode
  · rw [hnow.target, htarget, Option.or_none]
  · rw [hnow.options, (Node.options_inputs_unconnected hdata).1, Option.or_none]
  · rw [hnow.inputs, (Node.options_inputs_unconnected hdata).2, List.nil_append]

/-- All but the ids agrees with the nodes in every graph that is accepted. -/
theorem Parsed.owned {o : JsonObject} {graph : Graph} (h : Parsed o graph) {p : ℕ}
    (hp : graph.Points p) : p < graph.nodes.length := by
  have hlength : (flowIds o).length = graph.nodes.length := by rw [← h.nodeIds, List.length_map]
  have hmapped : ∀ id q, graph.nodeMap id = some q → q < graph.nodes.length := fun id q hmap => by
    rw [← hlength]
    exact (List.getElem?_eq_some_iff.mp (h.mapped id q hmap)).1
  have hkind : ∀ {kind : NodeKind} {q : ℕ}, graph.kinds[q]? = some kind → q < graph.nodes.length := by
    intro kind q hq
    have hlt := (List.getElem?_eq_some_iff.mp hq).1
    rwa [Graph.kinds, List.length_map] at hlt
  have hedge : ∀ edge ∈ flowEdges graph o,
      edge.1 < graph.nodes.length ∧ edge.2 < graph.nodes.length := fun edge hmem => by
    rw [← hlength]
    exact owned_of_mem_flowEdges h.mapped hmem
  rcases hp with hstart | hclients | ⟨id, hmap⟩ | hfile | hmixer | ⟨node, hmem, hnode⟩
  · obtain ⟨id, q, hq, hstartNode⟩ := h.start
    rw [hstartNode] at hstart
    obtain rfl := Option.some.inj hstart
    exact hmapped id _ hq
  · exact hkind ((h.clientsNode p).mp hclients)
  · exact hmapped id p hmap
  · rw [h.fileNodes] at hfile
    exact hkind (mem_positions.mp hfile)
  · rw [h.mixerNodes] at hmixer
    exact hkind (mem_positions.mp hmixer)
  · obtain ⟨q, hq⟩ := List.mem_iff_getElem?.mp hmem
    rcases hnode with htarget | hoptions | hinputs
    · rw [h.target q node hq] at htarget
      obtain ⟨edge, hmem, rfl⟩ := List.mem_map.mp (List.mem_of_getLast? htarget)
      exact (hedge edge (List.mem_of_mem_filter hmem)).2
    · rw [h.options q node hq] at hoptions
      obtain ⟨edge, hmem, rfl⟩ := List.mem_map.mp (List.mem_of_getLast? hoptions)
      exact (hedge edge (List.mem_of_mem_filter hmem)).1
    · rw [h.inputs q node hq] at hinputs
      obtain ⟨edge, hmem, rfl⟩ := List.mem_map.mp hinputs
      exact (hedge edge (List.mem_of_mem_filter hmem)).1

/-- The representation invariant holds of an accepted graph if and only if no
two nodes of the flow have the same id. -/
theorem represented_iff_ids_nodup {lib : Library} {o : JsonObject} {graph : Graph}
    (h : parseGraph lib o = .ok graph) : Represented graph ↔ (flowIds o).Nodup := by
  have hparsed := parseGraph_ok h
  have hid : ∀ {p : ℕ} {node : Node}, graph.nodes[p]? = some node →
      (flowIds o)[p]? = some node.id := by
    intro p node hnode
    rw [← hparsed.nodeIds, List.getElem?_map, hnode, Option.map_some]
  constructor
  · intro hrepresented
    rw [List.nodup_iff_getElem?_ne_getElem?]
    intro p q hpq hq heq
    have hnode : ∀ {r : ℕ}, r < (flowIds o).length → ∃ node, graph.nodes[r]? = some node := by
      intro r hr
      rw [← hparsed.nodeIds, List.length_map] at hr
      exact ⟨_, List.getElem?_eq_getElem hr⟩
    obtain ⟨first, hfirst⟩ := hnode (hpq.trans hq)
    obtain ⟨second, hsecond⟩ := hnode hq
    rw [hid hfirst, hid hsecond] at heq
    have hp' := hrepresented.ids p first hfirst
    have hq' := hrepresented.ids q second hsecond
    rw [Option.some.inj heq, hq'] at hp'
    exact absurd (Option.some.inj hp') hpq.ne'
  · intro hnodup
    refine ⟨?_, fun p => hparsed.owned, hparsed.fileNodes, hparsed.mixerNodes,
      hparsed.clientsNode, fun p node hnode => ?_⟩
    · obtain ⟨id, p, -, hstart⟩ := hparsed.start
      rw [hstart]
      rfl
    · obtain ⟨q, hq⟩ := hparsed.found node.id (List.mem_of_getElem? (hid hnode))
      have hsame : (flowIds o)[q]? = (flowIds o)[p]? := by rw [hparsed.mapped _ _ hq, hid hnode]
      have hlt := (List.getElem?_eq_some_iff.mp (hid hnode)).1
      rw [hq, (List.getElem?_inj hlt hnodup).mp hsame.symm]

/-- A library with exact conversions and no texts. -/
def plainLibrary : Library := ⟨fun _ _ => "", fun _ => "", id, id, fun _ => none⟩

/-- A flow. -/
def flowOf (nodes edges : List Json) (start : String) : JsonObject :=
  [("flow", .object [("nodes", .array nodes), ("start_node", .object [("id", .string start)]),
    ("edges", .array edges)])]

/-- A node of a flow. -/
def nodeJson (id type : String) (data : JsonObject) : Json :=
  .object [("id", .string id), ("type", .string type), ("data", .object data)]

/-- An edge of a flow. -/
def edgeJson (source target : String) : Json :=
  .object [("source", .string source), ("target", .string target)]

/-- A file that plays into a mixer. -/
def filePlays : JsonObject :=
  flowOf [nodeJson "a" "fileInput" [("fileName", .string "a.wav")], nodeJson "m" "mixer" []]
    [edgeJson "a" "m"] "a"

/-- A flow with a file and a delay in a loop. -/
def fileLoop : JsonObject :=
  flowOf
    [nodeJson "a" "fileInput" [("fileName", .string "a.wav")],
      nodeJson "d" "delay" [("delay", .int64 20)]]
    [edgeJson "a" "d", edgeJson "d" "a"] "a"

/-- Its graph. -/
def fileLoopGraph : Graph where
  nodes := [⟨"a", some 1, .fileInput "a.wav" "downloads/a.wav" none⟩,
    ⟨"d", some 0, .delay (delayFrames plainLibrary 20)⟩]
  nodeMap := Function.update (Function.update (fun _ => none) "a" (some 0)) "d" (some 1)
  startNode := some 0
  fileNodes := [0]
  mixerNodes := []
  clientsNode := none

/-- The text of a looping file is the graph with a loop. -/
theorem parse_fileLoop : parseGraph plainLibrary fileLoop = .ok fileLoopGraph := rfl

/-- The flow with one file is represented. -/
theorem represented_iff_ids_nodup_file :
    ∃ graph, parseGraph plainLibrary filePlays = .ok graph ∧ Represented graph := by
  refine ⟨_, rfl, ?_⟩
  exact (@represented_iff_ids_nodup plainLibrary filePlays _ rfl).mpr (by decide)

/-- Two mixers have the same id. -/
def repeatedId : JsonObject := flowOf [nodeJson "m" "mixer" [], nodeJson "m" "mixer" []] [] "m"

/-- A repeated id breaks the invariant of an accepted graph. -/
theorem not_represented_repeated_id :
    ¬∀ (lib : Library) (o : JsonObject) (graph : Graph), parseGraph lib o = .ok graph →
      Represented graph := by
  intro h
  have hrepresented := h plainLibrary repeatedId _ rfl
  have hfirst := hrepresented.ids 0 _ rfl
  exact absurd hfirst (by decide)

end HermesFlow.Infra
