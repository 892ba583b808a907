import HermesFlow.Json2Graph
import Mathlib.Data.List.Basic

/-!
# Edges of a flow

What the accepted edges leave in the nodes, as functions of the list of edges:
the inputs of a mixer are all its file inputs in order, the options of a file
input and the pointer to the next node are those of the last edge that sets them.
-/

namespace HermesFlow.Infra

namespace Node

/-- What an edge does not change in a node. -/
def label (node : Node) : String × NodeKind := (node.id, node.kind)

/-- `options_`. -/
def options (node : Node) : Option ℕ :=
  match node.data with
  | .fileInput _ _ options => options
  | _ => none

/-- `inputs_`. -/
def inputs (node : Node) : List ℕ :=
  match node.data with
  | .mixer inputs => inputs
  | _ => []

/-- Setting options keeps the label. -/
theorem label_setOptions (node : Node) (source : ℕ) : (node.setOptions source).label = node.label := by
  obtain ⟨id, target, data⟩ := node
  cases data <;> rfl

/-- Setting options keeps the pointer. -/
theorem target_setOptions (node : Node) (source : ℕ) :
    (node.setOptions source).target = node.target := by
  obtain ⟨id, target, data⟩ := node
  cases data <;> rfl

/-- Only a file input takes options. -/
theorem options_setOptions (node : Node) (source : ℕ) :
    (node.setOptions source).options =
      if node.kind = .fileInput then some source else node.options := by
  obtain ⟨id, target, data⟩ := node
  cases data <;> rfl

/-- Setting options keeps the inputs. -/
theorem inputs_setOptions (node : Node) (source : ℕ) :
    (node.setOptions source).inputs = node.inputs := by
  obtain ⟨id, target, data⟩ := node
  cases data <;> rfl

/-- An input keeps the label. -/
theorem label_addInput (node : Node) (source : ℕ) : (node.addInput source).label = node.label := by
  obtain ⟨id, target, data⟩ := node
  cases data <;> rfl

/-- An input keeps the pointer. -/
theorem target_addInput (node : Node) (source : ℕ) : (node.addInput source).target = node.target := by
  obtain ⟨id, target, data⟩ := node
  cases data <;> rfl

/-- An input keeps the options. -/
theorem options_addInput (node : Node) (source : ℕ) :
    (node.addInput source).options = node.options := by
  obtain ⟨id, target, data⟩ := node
  cases data <;> rfl

/-- Only a mixer takes an input. -/
theorem inputs_addInput (node : Node) (source : ℕ) :
    (node.addInput source).inputs =
      if node.kind = .mixer then node.inputs ++ [source] else node.inputs := by
  obtain ⟨id, target, data⟩ := node
  cases data <;> rfl

end Node

/-- The kind of the node at a position. -/
def kindAt (nodes : List Node) (p : ℕ) : Option NodeKind := nodes[p]?.map Node.kind

/-- Nodes with the same labels have the same kinds. -/
theorem kindAt_congr {nodes nodes' : List Node}
    (h : nodes'.map Node.label = nodes.map Node.label) (p : ℕ) :
    kindAt nodes' p = kindAt nodes p := by
  have hlabel := congrArg (fun labels => labels[p]?.map Prod.snd) h
  simp only [List.getElem?_map, Option.map_map] at hlabel
  exact hlabel

section Kinds

variable (kind : ℕ → Option NodeKind) (edge : ℕ × ℕ)

/-- The edge gives a file input its options. -/
def IsOptions : Prop := kind edge.1 = some .fileOptions ∧ kind edge.2 = some .fileInput

/-- The edge gives a mixer an input. -/
def IsInput : Prop := kind edge.1 = some .fileInput ∧ kind edge.2 = some .mixer

/-- The edge leads to the next node. -/
def IsWire : Prop :=
  (kind edge.2 = some .fileInput ∨ kind edge.2 = some .mixer ∨ kind edge.2 = some .delay) ∧
    ¬IsOptions kind edge

instance : Decidable (IsOptions kind edge) := inferInstanceAs (Decidable (_ ∧ _))

instance : Decidable (IsInput kind edge) := inferInstanceAs (Decidable (_ ∧ _))

instance : Decidable (IsWire kind edge) := inferInstanceAs (Decidable (_ ∧ _))

/-- What an accepted edge does to the node at a position. -/
def Node.connect (p : ℕ) (node : Node) : Node :=
  let node := if IsOptions kind edge ∧ p = edge.2 then node.setOptions edge.1 else node
  let node := if IsInput kind edge ∧ p = edge.2 then node.addInput edge.1 else node
  if IsWire kind edge ∧ p = edge.1 then node.setNext edge.2 else node

end Kinds

/-- One place of a list is changed. -/
theorem getElem?_modify_eq_map (nodes : List Node) (q : ℕ) (f : Node → Node) (p : ℕ) :
    (nodes.modify q f)[p]? = nodes[p]?.map fun node => if p = q then f node else node := by
  rw [List.getElem?_modify, Option.map_eq_map]
  simp only [eq_comm]

/-- An edge that is accepted changes the nodes in this way. -/
theorem applyEdge_connect {nodes nodes' : List Node} {edge : ℕ × ℕ}
    (h : applyEdge nodes edge = .ok nodes') (hsource : edge.1 < nodes.length)
    (htarget : edge.2 < nodes.length) (p : ℕ) :
    nodes'[p]? = nodes[p]?.map (Node.connect (kindAt nodes) edge p) := by
  have hkind₁ : kindAt nodes edge.1 = some nodes[edge.1].kind := by
    rw [kindAt, List.getElem?_eq_getElem hsource, Option.map_some]
  have hkind₂ : kindAt nodes edge.2 = some nodes[edge.2].kind := by
    rw [kindAt, List.getElem?_eq_getElem htarget, Option.map_some]
  unfold applyEdge at h
  rw [List.getElem?_eq_getElem hsource, List.getElem?_eq_getElem htarget] at h
  simp only [connectInput] at h
  generalize nodes[edge.1].kind = sourceKind at hkind₁ h
  generalize htargetKind : nodes[edge.2].kind = targetKind at hkind₂ h
  cases targetKind with
  | clients =>
    have hsame : nodes' = nodes := by
      cases sourceKind <;> simp [Except.mapError] at h <;> exact h.symm
    have hconnect : Node.connect (kindAt nodes) edge p = id := by
      funext node
      simp [Node.connect, IsOptions, IsInput, IsWire, hkind₂]
    rw [hsame, hconnect, Option.map_id]
    rfl
  | fileOptions => cases sourceKind <;> cases h
  | _ =>
    cases sourceKind <;> simp [connectFileInput, connectMixer, connectDelay, Except.mapError] at h
    all_goals
      subst h
      simp only [wireStandard, getElem?_modify_eq_map, Option.map_map]
      refine congrArg (Option.map · nodes[p]?) (funext fun node => ?_)
      simp [Node.connect, IsOptions, IsInput, IsWire, hkind₁, hkind₂]

section Connect

variable {kind : ℕ → Option NodeKind} {edge : ℕ × ℕ} {p : ℕ} {node : Node}

/-- An edge keeps a node's label. -/
theorem label_connect : (node.connect kind edge p).label = node.label := by
  have hnext : ∀ (node : Node) (target : ℕ), (node.setNext target).label = node.label :=
    fun _ _ => rfl
  simp only [Node.connect, apply_ite Node.label, hnext, Node.label_addInput, Node.label_setOptions,
    ite_self]

/-- A wire sets the pointer of its source. -/
theorem target_connect :
    (node.connect kind edge p).target =
      if IsWire kind edge ∧ p = edge.1 then some edge.2 else node.target := by
  have hnext : ∀ (node : Node) (target : ℕ), (node.setNext target).target = some target :=
    fun _ _ => rfl
  simp only [Node.connect, apply_ite Node.target, hnext, Node.target_addInput,
    Node.target_setOptions, ite_self]

/-- An edge of options sets those of its target. -/
theorem options_connect (hkind : kind p = some node.kind) :
    (node.connect kind edge p).options =
      if IsOptions kind edge ∧ p = edge.2 then some edge.1 else node.options := by
  have hnext : ∀ (node : Node) (target : ℕ), (node.setNext target).options = node.options :=
    fun _ _ => rfl
  simp only [Node.connect, apply_ite Node.options, hnext, Node.options_addInput,
    Node.options_setOptions, ite_self]
  by_cases hoptions : IsOptions kind edge ∧ p = edge.2
  · have hfile : node.kind = .fileInput := by
      have htarget := hoptions.1.2
      rw [← hoptions.2, hkind] at htarget
      exact Option.some.inj htarget
    rw [if_pos hoptions, if_pos hoptions, if_pos hfile]
  · rw [if_neg hoptions, if_neg hoptions]

/-- An edge of input is added to its target. -/
theorem inputs_connect (hkind : kind p = some node.kind) :
    (node.connect kind edge p).inputs =
      if IsInput kind edge ∧ p = edge.2 then node.inputs ++ [edge.1] else node.inputs := by
  have hnext : ∀ (node : Node) (target : ℕ), (node.setNext target).inputs = node.inputs :=
    fun _ _ => rfl
  have hoptions : ∀ node : Node, node.kind = .mixer →
      (if IsOptions kind edge ∧ p = edge.2 then node.setOptions edge.1 else node).kind = .mixer := by
    intro node hmixer
    split
    · exact (congrArg Prod.snd (node.label_setOptions edge.1)).trans hmixer
    · exact hmixer
  simp only [Node.connect, apply_ite Node.inputs, hnext, Node.inputs_addInput,
    Node.inputs_setOptions, ite_self]
  by_cases hinput : IsInput kind edge ∧ p = edge.2
  · have hmixer : node.kind = .mixer := by
      have htarget := hinput.1.2
      rw [← hinput.2, hkind] at htarget
      exact Option.some.inj htarget
    rw [if_pos hinput, if_pos hinput, if_pos (hoptions node hmixer)]
  · rw [if_neg hinput, if_neg hinput]

end Connect

section Fold

variable (kind : ℕ → Option NodeKind) (edges : List (ℕ × ℕ)) (p : ℕ)

/-- The nodes that a node is wired to, edge by edge. -/
def wiredTo : List ℕ := (edges.filter fun edge => IsWire kind edge ∧ p = edge.1).map (·.2)

/-- The options that a node is given. -/
def optionSources : List ℕ := (edges.filter fun edge => IsOptions kind edge ∧ p = edge.2).map (·.1)

/-- The inputs that a node is given. -/
def inputSources : List ℕ := (edges.filter fun edge => IsInput kind edge ∧ p = edge.2).map (·.1)

/-- What all the edges do to the node at a position. -/
def Node.connectAll (node : Node) : Node := edges.foldl (fun node edge => node.connect kind edge p) node

/-- The node holds what the edges gave it. -/
structure Connected (node node' : Node) : Prop where
  /-- The label is the same. -/
  label : node'.label = node.label
  /-- The pointer is the last one wired. -/
  target : node'.target = (wiredTo kind edges p).getLast?.or node.target
  /-- The options are the last ones set. -/
  options : node'.options = (optionSources kind edges p).getLast?.or node.options
  /-- The inputs are added in the order of the edges. -/
  inputs : node'.inputs = node.inputs ++ inputSources kind edges p

/-- The last of a list that may start with one more. -/
theorem getLast?_filter_cons {α β : Type} (f : α → β) (q : α → Prop) [DecidablePred q] (a : α)
    (l : List α) (old : Option β) :
    (((a :: l).filter q).map f).getLast?.or old =
      ((l.filter q).map f).getLast?.or (if q a then some (f a) else old) := by
  by_cases ha : q a
  · rw [List.filter_cons_of_pos (by simpa using ha), List.map_cons, List.getLast?_cons, if_pos ha]
    cases ((l.filter q).map f).getLast? <;> rfl
  · rw [List.filter_cons_of_neg (by simpa using ha), if_neg ha]

/-- After all edges a node holds what they gave it. -/
theorem connected_connectAll {node : Node} (hkind : kind p = some node.kind) :
    Connected kind edges p node (node.connectAll kind edges p) := by
  induction edges generalizing node with
  | nil => exact ⟨rfl, rfl, rfl, (List.append_nil _).symm⟩
  | cons edge edges ih =>
    have hlabel := @label_connect kind edge p node
    obtain ⟨hlabel', htarget, hoptions, hinputs⟩ :=
      ih (hkind.trans (congrArg (fun label => some label.2) hlabel.symm))
    refine ⟨hlabel'.trans hlabel, htarget.trans ?_, hoptions.trans ?_, hinputs.trans ?_⟩
    · rw [target_connect, wiredTo, wiredTo, getLast?_filter_cons]
    · rw [options_connect hkind, optionSources, optionSources, getLast?_filter_cons]
    · rw [inputs_connect hkind, inputSources, inputSources]
      by_cases hinput : IsInput kind edge ∧ p = edge.2
      · rw [if_pos hinput, List.filter_cons_of_pos (by simpa using hinput), List.map_cons,
          List.append_assoc, List.singleton_append]
      · rw [if_neg hinput, List.filter_cons_of_neg (by simpa using hinput)]

end Fold

/-- The nodes at the ends of an edge. -/
def edgeEnds (nodeMap : String → Option ℕ) (v : Json) : Option (ℕ × ℕ) := do
  let edge ← v.asObject
  let sourceId ← stringAt edge "source"
  let targetId ← stringAt edge "target"
  let source ← nodeMap sourceId
  let target ← nodeMap targetId
  return (source, target)

/-- A turn of the loop of `parse_edges` that accepts its edge. -/
theorem parseEdge_ok {lib : Library} {graph graph' : Graph} {v : Json}
    (h : parseEdge lib graph v = .ok graph') :
    ∃ edge nodes, edgeEnds graph.nodeMap v = some edge ∧ applyEdge graph.nodes edge = .ok nodes ∧
      graph' = { graph with nodes := nodes } := by
  obtain ⟨ids, hids, hrest⟩ := bind_ok h
  obtain ⟨edge, hedge, hrest⟩ := bind_ok hrest
  obtain ⟨nodes, hnodes, hgraph⟩ := bind_ok hrest
  cases hgraph
  refine ⟨edge, nodes, ?_, hnodes, rfl⟩
  unfold edgeIds at hids
  obtain ⟨obj, hobj, hids⟩ := bind_ok hids
  obtain ⟨source, hsource, hids⟩ := bind_ok hids
  obtain ⟨target, htarget, hids⟩ := bind_ok hids
  cases hids
  unfold edgeNodes at hedge
  split at hedge
  · rename_i s t hs ht
    cases hedge
    simp only [edgeEnds, objectOr_ok hobj, requireString_ok hsource, requireString_ok htarget, hs, ht,
      Option.bind_eq_bind, Option.bind_some]
    rfl
  · cases hedge

/-- The second graph is the first after the edges. -/
structure Wired (graph : Graph) (edges : List (ℕ × ℕ)) (graph' : Graph) : Prop where
  /-- Every node has taken the edges. -/
  nodes : ∀ p, graph'.nodes[p]? =
    graph.nodes[p]?.map (Node.connectAll (kindAt graph.nodes) edges p)
  /-- The rest of the graph is the same. -/
  indexes : graph' = { graph with nodes := graph'.nodes }

/-- No edges change nothing. -/
theorem Wired.nil (graph : Graph) : Wired graph [] graph where
  nodes := fun p => by
    have hid : Node.connectAll (kindAt graph.nodes) [] p = id := rfl
    rw [hid, Option.map_id]
    rfl
  indexes := rfl

variable {graph graph' : Graph} {edges : List (ℕ × ℕ)}

/-- Edges keep the labels. -/
theorem Wired.labels (h : Wired graph edges graph') :
    graph'.nodes.map Node.label = graph.nodes.map Node.label := by
  refine List.ext_getElem? fun p => ?_
  rw [List.getElem?_map, List.getElem?_map, h.nodes]
  cases hnode : graph.nodes[p]? with
  | none => rfl
  | some node =>
    have hkind : kindAt graph.nodes p = some node.kind := by
      rw [kindAt, hnode, Option.map_some]
    exact congrArg some (connected_connectAll _ edges p hkind).label

/-- Edges keep the number of nodes. -/
theorem Wired.length (h : Wired graph edges graph') : graph'.nodes.length = graph.nodes.length := by
  have hlength := congrArg List.length h.labels
  rwa [List.length_map, List.length_map] at hlength

/-- Edges keep the kinds. -/
theorem Wired.kinds (h : Wired graph edges graph') : kindAt graph'.nodes = kindAt graph.nodes :=
  funext (kindAt_congr h.labels)

/-- One more edge. -/
theorem Wired.snoc (h : Wired graph edges graph') {edge : ℕ × ℕ} {nodes : List Node}
    (happly : applyEdge graph'.nodes edge = .ok nodes) (hsource : edge.1 < graph.nodes.length)
    (htarget : edge.2 < graph.nodes.length) :
    Wired graph (edges ++ [edge]) { graph' with nodes := nodes } where
  nodes := fun p => by
    rw [← h.length] at hsource htarget
    rw [applyEdge_connect happly hsource htarget p, h.kinds, h.nodes, Option.map_map]
    refine congrArg (Option.map · graph.nodes[p]?) (funext fun node => ?_)
    simp only [Node.connectAll, List.foldl_append, List.foldl_cons, List.foldl_nil,
      Function.comp_apply]
  indexes := by rw [h.indexes]

/-- The ends of an edge are found under its ids. -/
theorem edgeEnds_mem {nodeMap : String → Option ℕ} {v : Json} {edge : ℕ × ℕ}
    (h : edgeEnds nodeMap v = some edge) :
    ∃ sourceId targetId, nodeMap sourceId = some edge.1 ∧ nodeMap targetId = some edge.2 := by
  simp only [edgeEnds, Option.bind_eq_bind, Option.bind_eq_some_iff, Option.pure_def] at h
  obtain ⟨obj, -, sourceId, -, targetId, -, source, hsource, target, htarget, hedge⟩ := h
  cases hedge
  exact ⟨sourceId, targetId, hsource, htarget⟩

/-- The edges that `parse_edges` accepts, and what they do. -/
theorem parseEdges_ok {lib : Library} {edgesArr : List Json}
    (h : parseEdges lib graph edgesArr = .ok graph')
    (howned : ∀ id p, graph.nodeMap id = some p → p < graph.nodes.length) :
    ∃ edges, edgesArr.map (edgeEnds graph.nodeMap) = edges.map some ∧ Wired graph edges graph' := by
  have hstep : ∀ done b v b',
      (∃ edges, done.map (edgeEnds graph.nodeMap) = edges.map some ∧ Wired graph edges b) →
      parseEdge lib b v = .ok b' →
      ∃ edges, (done ++ [v]).map (edgeEnds graph.nodeMap) = edges.map some ∧
        Wired graph edges b' := by
    rintro done b v b' ⟨edges, hedges, hwired⟩ hparse
    obtain ⟨edge, nodes, hedge, happly, rfl⟩ := parseEdge_ok hparse
    have hmap : b.nodeMap = graph.nodeMap := by rw [hwired.indexes]
    rw [hmap] at hedge
    obtain ⟨sourceId, targetId, hsource, htarget⟩ := edgeEnds_mem hedge
    refine ⟨edges ++ [edge], ?_, hwired.snoc happly (howned _ _ hsource) (howned _ _ htarget)⟩
    rw [List.map_append, List.map_append, hedges, List.map_singleton, List.map_singleton, hedge]
  have hstart : ∃ edges, ([] : List Json).map (edgeEnds graph.nodeMap) = edges.map some ∧
      Wired graph edges graph := ⟨[], rfl, Wired.nil graph⟩
  exact foldlM_ok hstep hstart h

end HermesFlow.Infra
