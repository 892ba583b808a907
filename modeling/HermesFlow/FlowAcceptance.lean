import HermesFlow.ClientsList
import HermesFlow.GraphInvariant
import Mathlib.Data.List.Forall2

/-!
# The flows that are accepted

Which texts `parse_graph` accepts, said of the text alone: every node names its kind and has the
data of the kind, the start node is one of them, at most one has clients, and every edge leads
from one of them to one that takes its kind.
-/

namespace HermesFlow.Infra

/-- The name of a kind in a flow. -/
def NodeKind.typeName : NodeKind → String
  | .fileInput => "fileInput"
  | .mixer => "mixer"
  | .delay => "delay"
  | .clients => "clients"
  | .fileOptions => "fileOptions"

/-- The kinds that an edge may join. -/
def Joins (source : NodeKind) : NodeKind → Prop
  | .fileInput => source = .delay ∨ source = .fileOptions
  | .mixer => source = .fileInput ∨ source = .delay
  | .delay | .clients => source ≠ .clients
  | .fileOptions => False

/-- The data that a node of a kind needs. -/
def HasData (lib : Library) (data : JsonObject) : NodeKind → Prop
  | .fileInput => ∃ name, data.lookup "fileName" = some (.string name)
  | .mixer => True
  | .delay => ∃ delay, (data.lookup "delay").bind (Json.asFloat lib) = some delay ∧ 0 ≤ delay
  | .clients => ∀ json, data.lookup "clients" = some json →
      ∃ elements, json = .array elements ∧ ∀ v ∈ elements, ∃ client, v = .object client ∧
        ClientRead client
  | .fileOptions => ((data.lookup "gain").bind (Json.asDouble lib)).isSome ∧
      ((data.lookup "pitch_shift").bind (Json.asDouble lib)).isSome

/-- An element of `nodes` describes a node with an id and a kind. -/
def Describes (lib : Library) (v : Json) (label : String × NodeKind) : Prop :=
  ∃ obj data, v = .object obj ∧ obj.lookup "id" = some (.string label.1) ∧
    obj.lookup "type" = some (.string label.2.typeName) ∧
      obj.lookup "data" = some (.object data) ∧ HasData lib data label.2

/-- The kind of the last node with an id. -/
def labelled (labels : List (String × NodeKind)) (id : String) : Option NodeKind :=
  labels.reverse.lookup id

/-- An element of `edges` joins two of the nodes. -/
def JoinsNodes (labels : List (String × NodeKind)) (v : Json) : Prop :=
  ∃ obj source target sourceKind targetKind, v = .object obj ∧
    obj.lookup "source" = some (.string source) ∧ obj.lookup "target" = some (.string target) ∧
      labelled labels source = some sourceKind ∧ labelled labels target = some targetKind ∧
        Joins sourceKind targetKind

/-- At most one of the nodes has clients. -/
def OneClients (labels : List (String × NodeKind)) : Prop :=
  labels.countP (fun label => label.2 = .clients) ≤ 1

/-- A flow with nodes of these ids and kinds. -/
structure Flows (lib : Library) (labels : List (String × NodeKind)) (flow : JsonObject) : Prop where
  /-- Its nodes are of the kinds given, in order. -/
  nodes : ∃ nodes, flow.lookup "nodes" = some (.array nodes) ∧
    List.Forall₂ (Describes lib) nodes labels
  /-- Not more than one node has the clients. -/
  oneClients : OneClients labels
  /-- The node to start at is one of these. -/
  start : ∃ obj id, flow.lookup "start_node" = some (.object obj) ∧
    obj.lookup "id" = some (.string id) ∧ id ∈ labels.map Prod.fst
  /-- Every edge joins two of these. -/
  edges : ∃ edges, flow.lookup "edges" = some (.array edges) ∧ ∀ v ∈ edges, JoinsNodes labels v

section Fields

/-- A computation succeeds if and only if both its parts do. -/
theorem bind_ok_iff {ε α β : Type} {x : Except ε α} {f : α → Except ε β} {b : β} :
    x >>= f = .ok b ↔ ∃ a, x = .ok a ∧ f a = .ok b := by
  refine ⟨bind_ok, ?_⟩
  rintro ⟨a, rfl, hf⟩
  exact hf

variable {lib : Library} {obj : JsonObject} {key : String}

/-- What is required is found if and only if it is there, with the type. -/
theorem requireJson_ok_iff {α : Type} {type : JsonType} {valueTo : Json → Option α} {a : α} :
    requireJson lib type valueTo obj key = .ok a ↔ (obj.lookup key).bind valueTo = some a := by
  refine ⟨requireJson_ok, fun h => ?_⟩
  obtain ⟨value, hlookup, hvalue⟩ := Option.bind_eq_some_iff.mp h
  unfold requireJson
  rw [hlookup]
  simp only [hvalue]

/-- Only a string is read as one. -/
theorem asString_eq_some {v : Json} {s : String} : v.asString = some s ↔ v = .string s := by
  cases v <;> simp [Json.asString]

/-- Only an object is read as one. -/
theorem asObject_eq_some {v : Json} {fields : JsonObject} :
    v.asObject = some fields ↔ v = .object fields := by
  cases v <;> simp [Json.asObject]

/-- Only an array is read as one. -/
theorem asArray_eq_some {v : Json} {elements : List Json} :
    v.asArray = some elements ↔ v = .array elements := by
  cases v <;> simp [Json.asArray]

/-- A required string is read exactly when it is there. -/
theorem requireString_ok_iff {s : String} :
    requireString lib obj key = .ok s ↔ obj.lookup key = some (.string s) := by
  rw [requireString, requireJson_ok_iff, Option.bind_eq_some_iff]
  simp only [asString_eq_some, exists_eq_right]

/-- A required object is read exactly when it is there. -/
theorem requireObject_ok_iff {fields : JsonObject} :
    requireObject lib obj key = .ok fields ↔ obj.lookup key = some (.object fields) := by
  rw [requireObject, requireJson_ok_iff, Option.bind_eq_some_iff]
  simp only [asObject_eq_some, exists_eq_right]

/-- A required array is read exactly when it is there. -/
theorem requireArray_ok_iff {elements : List Json} :
    requireArray lib obj key = .ok elements ↔ obj.lookup key = some (.array elements) := by
  rw [requireArray, requireJson_ok_iff, Option.bind_eq_some_iff]
  simp only [asArray_eq_some, exists_eq_right]

/-- What is not an object is an error. -/
theorem objectOr_ok_iff {v : Json} {message : String} {fields : JsonObject} :
    objectOr v message = .ok fields ↔ v = .object fields := by
  refine ⟨fun h => asObject_eq_some.mp (objectOr_ok h), ?_⟩
  rintro rfl
  rfl

end Fields

section Create

variable {lib : Library} {data : JsonObject}

/-- A client is accepted exactly when each field is read. -/
theorem parseClient_ok_iff (hlib : StandardDoubles lib) {v : Json} :
    (∃ client, parseClient lib v = .ok client) ↔ ∃ client, v = .object client ∧ ClientRead client := by
  by_cases hobject : ∃ client, v = .object client
  · obtain ⟨client, rfl⟩ := hobject
    simp only [Json.object.injEq, exists_eq_left']
    rcases parseClient_decides hlib client with ⟨hread, hok⟩ | ⟨hread, e, he⟩
    · exact iff_of_true hok hread
    · exact iff_of_false (by rintro ⟨c, hc⟩; cases he.symm.trans hc) hread
  · rw [parseClient_notObject hobject]
    exact iff_of_false (by rintro ⟨c, hc⟩; cases hc)
      fun ⟨client, hclient, _⟩ => hobject ⟨client, hclient⟩

/-- A loop over a list succeeds if and only if every turn does. -/
theorem mapM_ok_iff {ε α β : Type} {f : α → Except ε β} {l : List α} :
    (∃ bs, l.mapM f = .ok bs) ↔ ∀ a ∈ l, ∃ b, f a = .ok b := by
  induction l with
  | nil => exact ⟨fun _ => nofun, fun _ => ⟨[], rfl⟩⟩
  | cons a l ih =>
    rw [List.mapM_cons, List.forall_mem_cons, ← ih]
    simp only [bind_ok_iff]
    constructor
    · rintro ⟨_, b, hb, bs, hbs, -⟩
      exact ⟨⟨b, hb⟩, bs, hbs⟩
    · rintro ⟨⟨b, hb⟩, bs, hbs⟩
      exact ⟨b :: bs, b, hb, bs, hbs, rfl⟩

/-- A list of clients is accepted exactly when each of them is. -/
theorem createClients_ok_iff (hlib : StandardDoubles lib) :
    (∃ node, createClients lib data = .ok node) ↔ HasData lib data .clients := by
  unfold createClients HasData
  cases hlookup : data.lookup "clients" with
  | none => exact iff_of_true ⟨_, rfl⟩ nofun
  | some json =>
    simp only [bind_ok_iff, requireArray_ok_iff, hlookup, Option.some.injEq, forall_eq']
    constructor
    · rintro ⟨node, elements, rfl, clients, hclients, -⟩
      refine ⟨elements, rfl, fun v hv => (parseClient_ok_iff hlib).mp ?_⟩
      exact mapM_ok_iff.mp ⟨clients, hclients⟩ v hv
    · rintro ⟨elements, rfl, helements⟩
      obtain ⟨clients, hclients⟩ := mapM_ok_iff.mpr fun v hv =>
        (parseClient_ok_iff hlib).mpr (helements v hv)
      exact ⟨_, elements, rfl, clients, hclients, rfl⟩

/-- A delay is accepted exactly when its length is read. -/
theorem createDelay_ok_iff :
    (∃ node, createDelay lib data = .ok node) ↔ HasData lib data .delay := by
  unfold createDelay HasData
  simp only [bind_ok_iff, requireFloat, requireJson_ok_iff]
  constructor
  · rintro ⟨node, delay, hdelay, hnode⟩
    split at hnode
    · cases hnode
    · rename_i hneg
      exact ⟨delay, hdelay, not_lt.mp hneg⟩
  · rintro ⟨delay, hdelay, hnonneg⟩
    exact ⟨_, delay, hdelay, if_neg (not_lt.mpr hnonneg)⟩

/-- No two kinds have one name. -/
theorem typeName_injective : Function.Injective NodeKind.typeName := by
  intro kind kind' h
  cases kind <;> cases kind' <;> first | rfl | exact absurd h (by decide)

/-- The creator of a kind. -/
theorem createNode_typeName (kind : NodeKind) :
    createNode lib kind.typeName data =
      match kind with
      | .fileInput => createFileInput lib data
      | .mixer => createMixer
      | .delay => createDelay lib data
      | .clients => createClients lib data
      | .fileOptions => createFileOptions lib data := by
  cases kind <;> rfl

/-- A node of a kind is made exactly when its data are read. -/
theorem createNode_kind_ok_iff (hlib : StandardDoubles lib) {kind : NodeKind} :
    (∃ node, createNode lib kind.typeName data = .ok node) ↔ HasData lib data kind := by
  rw [createNode_typeName]
  cases kind with
  | fileInput =>
    simp only [createFileInput, bind_ok_iff, requireString_ok_iff, HasData]
    constructor
    · rintro ⟨_, name, hname, -⟩
      exact ⟨name, hname⟩
    · rintro ⟨name, hname⟩
      exact ⟨_, name, hname, rfl⟩
  | mixer => exact iff_of_true ⟨_, rfl⟩ trivial
  | delay => exact createDelay_ok_iff
  | clients => exact createClients_ok_iff hlib
  | fileOptions =>
    simp only [createFileOptions, bind_ok_iff, requireDouble, requireJson_ok_iff, HasData,
      Option.isSome_iff_exists]
    constructor
    · rintro ⟨_, gain, hgain, pitchShift, hshift, -⟩
      exact ⟨⟨gain, hgain⟩, pitchShift, hshift⟩
    · rintro ⟨⟨gain, hgain⟩, pitchShift, hshift⟩
      exact ⟨_, gain, hgain, pitchShift, hshift, rfl⟩

/-- A node of a type is created if and only if its data are there, and then it is of the kind. -/
theorem createNode_ok_iff (hlib : StandardDoubles lib) {type : String} {kind : NodeKind} :
    (∃ node, createNode lib type data = .ok node ∧ node.kind = kind) ↔
      type = kind.typeName ∧ HasData lib data kind := by
  have htype : ∀ {node}, createNode lib type data = .ok node → type = node.kind.typeName := by
    intro node h
    cases createNode_creates h <;> rfl
  constructor
  · rintro ⟨node, hnode, rfl⟩
    have hname := htype hnode
    rw [hname] at hnode
    exact ⟨hname, (createNode_kind_ok_iff hlib).mp ⟨node, hnode⟩⟩
  · rintro ⟨rfl, hdata⟩
    obtain ⟨node, hnode⟩ := (createNode_kind_ok_iff hlib).mpr hdata
    exact ⟨node, hnode, (typeName_injective (htype hnode)).symm⟩

end Create

section Nodes

variable {lib : Library} {graph graph' : Graph} {labels : List (String × NodeKind)}

/-- A label at the end is found first. -/
theorem labelled_concat (labels : List (String × NodeKind)) (label : String × NodeKind)
    (id : String) :
    labelled (labels ++ [label]) id = if id = label.1 then some label.2 else labelled labels id := by
  rw [labelled, List.reverse_append, List.reverse_singleton, List.singleton_append, List.lookup_cons]
  by_cases hid : id = label.1
  · rw [if_pos hid, beq_iff_eq.mpr hid]
  · rw [if_neg hid, beq_eq_false_iff_ne.mpr hid, labelled]

/-- A graph without edges, or with some: an id leads to the last node that has it. -/
structure Mapped (labels : List (String × NodeKind)) (graph : Graph) : Prop where
  /-- The nodes have these labels. -/
  nodes : graph.nodes.map Node.label = labels
  /-- An id leads to a node of its last label's kind. -/
  ids : ∀ id, (graph.nodeMap id).bind (kindAt graph.nodes) = labelled labels id
  /-- An id leads to a node of the graph. -/
  owned : ∀ id p, graph.nodeMap id = some p → p < graph.nodes.length
  /-- The clients' node is set exactly when there is one. -/
  clients : graph.clientsNode.isSome = true ↔ ∃ label ∈ labels, label.2 = NodeKind.clients

/-- The empty graph has no labels. -/
theorem Mapped.empty : Mapped [] Graph.empty where
  nodes := rfl
  ids := fun _ => rfl
  owned := nofun
  clients := iff_of_false Bool.false_ne_true (by rintro ⟨_, hmem, -⟩; cases hmem)

/-- A node that is added has the last label. -/
theorem Mapped.addNode (h : Mapped labels graph) (node : Node) :
    Mapped (labels ++ [node.label]) (graph.addNode node) where
  nodes := by
    rw [← h.nodes]
    exact List.map_append ..
  ids := fun id => by
    rw [labelled_concat, ← h.ids]
    simp only [Graph.addNode, Function.update_apply]
    by_cases hid : id = node.id
    · rw [if_pos hid, if_pos (show id = node.label.1 from hid), Option.bind_some, kindAt,
        List.getElem?_concat_length, Option.map_some]
      rfl
    · rw [if_neg hid, if_neg (show ¬id = node.label.1 from hid)]
      refine Option.bind_congr fun p hp => ?_
      rw [kindAt, kindAt, List.getElem?_append_left (h.owned id p hp)]
  owned := fun id p hp => by
    simp only [Graph.addNode, Function.update_apply, List.length_append, List.length_singleton]
      at hp ⊢
    split at hp
    · cases hp
      exact Nat.lt_succ_self _
    · exact (h.owned id p hp).trans (Nat.lt_succ_self _)
  clients := by
    simp only [Graph.addNode, List.mem_append, List.mem_singleton, or_and_right, exists_or,
      exists_eq_left, ← h.clients]
    by_cases hkind : node.kind = .clients
    · rw [if_pos hkind]
      exact iff_of_true rfl (.inr hkind)
    · rw [if_neg hkind, or_iff_left (show ¬node.label.2 = .clients from hkind)]

/-- A turn of the loop of `parse_nodes`. -/
theorem parseNode_ok_iff (hlib : StandardDoubles lib) {v : Json} {label : String × NodeKind} :
    (∃ node : Node, node.label = label ∧ parseNode lib graph v = .ok (graph.addNode node)) ↔
      Describes lib v label ∧ ¬(label.2 = .clients ∧ graph.clientsNode.isSome = true) := by
  constructor
  · rintro ⟨node, rfl, h⟩
    unfold parseNode at h
    simp only [bind_ok_iff, objectOr_ok_iff, requireString_ok_iff, requireObject_ok_iff] at h
    obtain ⟨obj, hobj, id, hid, type, htype, data, hdata, created, hcreated, h⟩ := h
    split at h
    · cases h
    · rename_i hsingle
      have hnodes := List.append_cancel_left (congrArg Graph.nodes (Except.ok.inj h))
      obtain rfl := List.singleton_inj.mp hnodes
      obtain ⟨rfl, hhas⟩ := (createNode_ok_iff hlib).mp ⟨created, hcreated, rfl⟩
      exact ⟨⟨obj, data, hobj, hid, htype, hdata, hhas⟩, hsingle⟩
  · rintro ⟨⟨obj, data, hobj, hid, htype, hdata, hhas⟩, hsingle⟩
    obtain ⟨created, hcreated, hkind⟩ := (createNode_ok_iff hlib).mpr ⟨rfl, hhas⟩
    refine ⟨⟨label.1, none, created⟩, Prod.ext rfl hkind, ?_⟩
    rw [← hkind] at hsingle
    unfold parseNode
    simp only [bind_ok_iff, objectOr_ok_iff, requireString_ok_iff, requireObject_ok_iff]
    exact ⟨obj, hobj, _, hid, _, htype, data, hdata, created, hcreated, if_neg hsingle⟩

/-- One more node, of which there is none yet if it has clients. -/
theorem oneClients_concat {label : String × NodeKind} :
    OneClients (labels ++ [label]) ↔ OneClients labels ∧
      ¬(label.2 = .clients ∧ ∃ other ∈ labels, other.2 = NodeKind.clients) := by
  have hnone : labels.countP (fun label => label.2 = .clients) = 0 ↔
      ¬∃ other ∈ labels, other.2 = NodeKind.clients := by
    simp only [List.countP_eq_zero, decide_eq_true_eq, not_exists, not_and]
  rw [OneClients, OneClients, List.countP_append, List.countP_singleton]
  by_cases hkind : label.2 = .clients
  · rw [if_pos (decide_eq_true hkind), and_iff_right hkind, ← hnone]
    omega
  · rw [if_neg (by simpa using hkind), and_iff_left (fun h => hkind h.1)]
    rfl

/-- Nodes that are described are accepted, one after the other. -/
theorem parseNodes_ok_of (hlib : StandardDoubles lib) {nodes : List Json}
    {rest : List (String × NodeKind)} (hmapped : Mapped labels graph)
    (hnodes : List.Forall₂ (Describes lib) nodes rest) (hone : OneClients (labels ++ rest)) :
    ∃ graph', parseNodes lib graph nodes = .ok graph' ∧ Mapped (labels ++ rest) graph' := by
  induction hnodes generalizing graph labels with
  | nil =>
    rw [List.append_nil]
    exact ⟨graph, rfl, hmapped⟩
  | @cons v label nodes rest hv hnodes ih =>
    rw [List.append_cons] at hone ⊢
    have hfirst : OneClients (labels ++ [label]) := by
      rw [OneClients, List.countP_append] at hone
      exact (Nat.le_add_right _ _).trans hone
    have hsingle := (oneClients_concat.mp hfirst).2
    rw [← hmapped.clients] at hsingle
    obtain ⟨node, rfl, hnode⟩ := (parseNode_ok_iff hlib).mpr ⟨hv, hsingle⟩
    obtain ⟨graph', hgraph', hmapped'⟩ := ih (hmapped.addNode node) hone
    exact ⟨graph', bind_ok_iff.mpr ⟨_, hnode, hgraph'⟩, hmapped'⟩

/-- The nodes that `parse_nodes` accepts. -/
theorem parseNodes_describes (hlib : StandardDoubles lib) {nodes : List Json}
    (hmapped : Mapped labels graph) (hone : OneClients labels)
    (h : parseNodes lib graph nodes = .ok graph') :
    ∃ rest, List.Forall₂ (Describes lib) nodes rest ∧ Mapped (labels ++ rest) graph' ∧
      OneClients (labels ++ rest) := by
  induction nodes generalizing graph labels with
  | nil =>
    cases h
    rw [← List.append_nil labels] at hmapped hone
    exact ⟨[], .nil, hmapped, hone⟩
  | cons v nodes ih =>
    obtain ⟨next, hnext, hrest⟩ := bind_ok h
    obtain ⟨node, -, -, -, rfl⟩ := parseNode_ok hnext
    obtain ⟨hv, hsingle⟩ := (parseNode_ok_iff hlib).mp ⟨node, rfl, hnext⟩
    rw [hmapped.clients] at hsingle
    obtain ⟨rest, hnodes, hmapped', hone'⟩ :=
      ih (hmapped.addNode node) (oneClients_concat.mpr ⟨hone, hsingle⟩) hrest
    rw [← List.append_cons] at hmapped' hone'
    exact ⟨node.label :: rest, .cons hv hnodes, hmapped', hone'⟩

end Nodes

section Edges

variable {lib : Library} {graph graph' : Graph} {labels : List (String × NodeKind)}

/-- An edge between two nodes is applied if and only if it may join their kinds. -/
theorem applyEdge_ok_iff {nodes : List Node} {edge : ℕ × ℕ} {sourceKind targetKind : NodeKind}
    (hsource : kindAt nodes edge.1 = some sourceKind)
    (htarget : kindAt nodes edge.2 = some targetKind) :
    (∃ nodes', applyEdge nodes edge = .ok nodes') ↔ Joins sourceKind targetKind := by
  obtain ⟨source, hs, rfl⟩ := Option.map_eq_some_iff.mp hsource
  obtain ⟨target, ht, rfl⟩ := Option.map_eq_some_iff.mp htarget
  rw [applyEdge, hs, ht]
  dsimp only
  rw [connectInput]
  generalize source.kind = sourceKind
  generalize target.kind = targetKind
  cases targetKind <;> cases sourceKind <;>
    simp [connectFileInput, connectMixer, connectDelay, Joins, Except.mapError]

/-- The nodes keep their ids and kinds. -/
theorem Mapped.applyEdge (h : Mapped labels graph) {edge : ℕ × ℕ} {nodes : List Node}
    (happly : applyEdge graph.nodes edge = .ok nodes) (hsource : edge.1 < graph.nodes.length)
    (htarget : edge.2 < graph.nodes.length) : Mapped labels { graph with nodes := nodes } := by
  have hwired := (Wired.nil graph).snoc happly hsource htarget
  refine ⟨hwired.labels.trans h.nodes, fun id => ?_, fun id p hp => ?_, h.clients⟩
  · rw [hwired.kinds]
    exact h.ids id
  · rw [hwired.length]
    exact h.owned id p hp

/-- An id is that of a node if and only if it leads to one. -/
theorem Mapped.labelled_iff (h : Mapped labels graph) {id : String} {kind : NodeKind} :
    labelled labels id = some kind ↔
      ∃ p, graph.nodeMap id = some p ∧ kindAt graph.nodes p = some kind := by
  rw [← h.ids, Option.bind_eq_some_iff]

/-- The ends of an edge are found exactly when the map has them. -/
theorem edgeNodes_ok_iff {ids : String × String} {edge : ℕ × ℕ} :
    edgeNodes graph ids = .ok edge ↔
      graph.nodeMap ids.1 = some edge.1 ∧ graph.nodeMap ids.2 = some edge.2 := by
  unfold edgeNodes
  constructor
  · intro h
    split at h
    · rename_i source target hsource htarget
      cases h
      exact ⟨hsource, htarget⟩
    · cases h
  · rintro ⟨hsource, htarget⟩
    rw [hsource, htarget]

/-- The ids of an edge are read exactly when both are there. -/
theorem edgeIds_ok_iff {v : Json} {ids : String × String} :
    edgeIds lib v = .ok ids ↔ ∃ obj, v = .object obj ∧
      obj.lookup "source" = some (.string ids.1) ∧ obj.lookup "target" = some (.string ids.2) := by
  unfold edgeIds
  simp only [bind_ok_iff, objectOr_ok_iff, requireString_ok_iff]
  constructor
  · rintro ⟨obj, hobj, source, hsource, target, htarget, h⟩
    cases h
    exact ⟨obj, hobj, hsource, htarget⟩
  · rintro ⟨obj, hobj, hsource, htarget⟩
    exact ⟨obj, hobj, _, hsource, _, htarget, rfl⟩

/-- An id that leads to a node is one of a node. -/
theorem Mapped.exists_kind (h : Mapped labels graph) {id : String} {p : ℕ}
    (hp : graph.nodeMap id = some p) :
    ∃ kind, kindAt graph.nodes p = some kind ∧ labelled labels id = some kind := by
  have hlt := h.owned id p hp
  have hkind : kindAt graph.nodes p = some graph.nodes[p].kind := by
    rw [kindAt, List.getElem?_eq_getElem hlt, Option.map_some]
  exact ⟨_, hkind, h.labelled_iff.mpr ⟨p, hp, hkind⟩⟩

/-- A turn of the loop of `parse_edges`. -/
theorem parseEdge_ok_iff (h : Mapped labels graph) {v : Json} :
    (∃ graph', parseEdge lib graph v = .ok graph') ↔ JoinsNodes labels v := by
  unfold parseEdge
  simp only [bind_ok_iff, edgeIds_ok_iff, edgeNodes_ok_iff]
  constructor
  · rintro ⟨_, ids, ⟨obj, hobj, hsource, htarget⟩, edge, ⟨hs, ht⟩, nodes, hnodes, -⟩
    obtain ⟨sourceKind, hsourceKind, hsourceLabel⟩ := h.exists_kind hs
    obtain ⟨targetKind, htargetKind, htargetLabel⟩ := h.exists_kind ht
    exact ⟨obj, _, _, sourceKind, targetKind, hobj, hsource, htarget, hsourceLabel, htargetLabel,
      (applyEdge_ok_iff hsourceKind htargetKind).mp ⟨nodes, hnodes⟩⟩
  · rintro ⟨obj, source, target, sourceKind, targetKind, hobj, hsource, htarget, hs, ht, hjoins⟩
    obtain ⟨s, hs, hsourceKind⟩ := h.labelled_iff.mp hs
    obtain ⟨t, ht, htargetKind⟩ := h.labelled_iff.mp ht
    obtain ⟨nodes, hnodes⟩ := (@applyEdge_ok_iff _ (s, t) _ _ hsourceKind htargetKind).mpr hjoins
    exact ⟨_, (source, target), ⟨obj, hobj, hsource, htarget⟩, (s, t), ⟨hs, ht⟩, nodes, hnodes, rfl⟩

/-- An edge changes no label. -/
theorem Mapped.parseEdge (h : Mapped labels graph) {v : Json}
    (hparse : parseEdge lib graph v = .ok graph') : Mapped labels graph' := by
  obtain ⟨edge, nodes, hends, happly, rfl⟩ := parseEdge_ok hparse
  obtain ⟨sourceId, targetId, hsource, htarget⟩ := edgeEnds_mem hends
  exact h.applyEdge happly (h.owned _ _ hsource) (h.owned _ _ htarget)

/-- Edges change no label. -/
theorem Mapped.parseEdges (h : Mapped labels graph) {edges : List Json}
    (hparse : parseEdges lib graph edges = .ok graph') : Mapped labels graph' := by
  induction edges generalizing graph with
  | nil =>
    cases hparse
    exact h
  | cons v edges ih =>
    obtain ⟨next, hnext, hrest⟩ := bind_ok hparse
    exact ih (h.parseEdge hnext) hrest

/-- The edges that `parse_edges` accepts. -/
theorem parseEdges_ok_iff (h : Mapped labels graph) {edges : List Json} :
    (∃ graph', parseEdges lib graph edges = .ok graph') ↔ ∀ v ∈ edges, JoinsNodes labels v := by
  induction edges generalizing graph with
  | nil => exact iff_of_true ⟨graph, rfl⟩ nofun
  | cons v edges ih =>
    rw [List.forall_mem_cons, ← parseEdge_ok_iff h]
    constructor
    · rintro ⟨graph', hparse⟩
      obtain ⟨next, hnext, hrest⟩ := bind_ok hparse
      exact ⟨⟨next, hnext⟩, (ih (h.parseEdge hnext)).mp ⟨graph', hrest⟩⟩
    · rintro ⟨⟨next, hnext⟩, hrest⟩
      obtain ⟨graph', hgraph'⟩ := (ih (h.parseEdge hnext)).mpr hrest
      exact ⟨graph', bind_ok_iff.mpr ⟨next, hnext, hgraph'⟩⟩

end Edges

/-- The ids that lead to nodes are those of the nodes. -/
theorem Mapped.mem_ids_iff {labels : List (String × NodeKind)} {graph : Graph}
    (h : Mapped labels graph) {id : String} :
    id ∈ labels.map Prod.fst ↔ ∃ p, graph.nodeMap id = some p := by
  have hlabelled : (labelled labels id).isSome = true ↔ id ∈ labels.map Prod.fst := by
    rw [labelled, List.lookup_isSome_iff, List.mem_map]
    simp only [List.mem_reverse, beq_iff_eq]
    exact exists_congr fun label => and_congr_right fun _ => eq_comm
  rw [← hlabelled, Option.isSome_iff_exists]
  constructor
  · rintro ⟨kind, hkind⟩
    obtain ⟨p, hp, -⟩ := h.labelled_iff.mp hkind
    exact ⟨p, hp⟩
  · rintro ⟨p, hp⟩
    obtain ⟨kind, -, hkind⟩ := h.exists_kind hp
    exact ⟨kind, hkind⟩

/-- The start is set exactly when its id leads to a node. -/
theorem setStartNode_ok_iff {lib : Library} {graph graph' : Graph} {flow : JsonObject} :
    setStartNode lib flow graph = .ok graph' ↔
      ∃ obj id p, flow.lookup "start_node" = some (.object obj) ∧
        obj.lookup "id" = some (.string id) ∧ graph.nodeMap id = some p ∧
          graph' = { graph with startNode := some p } := by
  unfold setStartNode
  simp only [bind_ok_iff, requireObject_ok_iff, requireString_ok_iff]
  constructor
  · rintro ⟨obj, hobj, id, hid, h⟩
    split at h
    · cases h
    · rename_i p hp
      cases h
      exact ⟨obj, id, p, hobj, hid, hp, rfl⟩
  · rintro ⟨obj, id, p, hobj, hid, hp, rfl⟩
    refine ⟨obj, hobj, id, hid, ?_⟩
    rw [hp]

/-- `parse_graph` accepts a text if and only if it is a flow, and then its nodes have the ids and
kinds of the text. -/
theorem parseGraph_accepts_iff {lib : Library} (hlib : StandardDoubles lib) {o : JsonObject}
    {labels : List (String × NodeKind)} :
    (∃ graph, parseGraph lib o = .ok graph ∧ graph.nodes.map Node.label = labels) ↔
      ∃ flow, o.lookup "flow" = some (.object flow) ∧ Flows lib labels flow := by
  unfold parseGraph
  simp only [bind_ok_iff, requireObject_ok_iff, requireArray_ok_iff, setStartNode_ok_iff]
  constructor
  · rintro ⟨graph, ⟨flow, hflow, nodes, hnodes, parsed, hparsed, _, ⟨obj, id, p, hobj, hid, hp, rfl⟩,
      edges, hedges, hgraph⟩, hlabels⟩
    obtain ⟨rest, hdescribes, hmapped, hone⟩ :=
      parseNodes_describes hlib Mapped.empty (Nat.zero_le 1) hparsed
    rw [List.nil_append] at hmapped hone
    have hstarted : Mapped rest { parsed with startNode := some p } :=
      ⟨hmapped.nodes, hmapped.ids, hmapped.owned, hmapped.clients⟩
    obtain rfl := (hstarted.parseEdges hgraph).nodes.symm.trans hlabels
    exact ⟨flow, hflow, ⟨nodes, hnodes, hdescribes⟩, hone,
      ⟨obj, id, hobj, hid, hmapped.mem_ids_iff.mpr ⟨p, hp⟩⟩, edges, hedges,
      (parseEdges_ok_iff hstarted).mp ⟨graph, hgraph⟩⟩
  · rintro ⟨flow, hflow, ⟨nodes, hnodes, hdescribes⟩, hone, ⟨obj, id, hobj, hid, hmem⟩, edges, hedges,
      hjoins⟩
    obtain ⟨parsed, hparsed, hmapped⟩ := parseNodes_ok_of hlib Mapped.empty hdescribes hone
    rw [List.nil_append] at hmapped
    obtain ⟨p, hp⟩ := hmapped.mem_ids_iff.mp hmem
    have hstarted : Mapped labels { parsed with startNode := some p } :=
      ⟨hmapped.nodes, hmapped.ids, hmapped.owned, hmapped.clients⟩
    obtain ⟨graph, hgraph⟩ := (parseEdges_ok_iff hstarted).mpr hjoins
    exact ⟨graph, ⟨flow, hflow, nodes, hnodes, parsed, hparsed, _, ⟨obj, id, p, hobj, hid, hp, rfl⟩,
      edges, hedges, hgraph⟩, (hstarted.parseEdges hgraph).nodes⟩

/-- The example's text is a flow of a file and a mixer. -/
theorem flows_filePlays :
    ∃ flow, filePlays.lookup "flow" = some (.object flow) ∧
      Flows standardLibrary [("a", .fileInput), ("m", .mixer)] flow := by
  refine ⟨_, rfl, ⟨_, rfl, .cons ?_ (.cons ?_ .nil)⟩, Nat.zero_le 1, ⟨_, "a", rfl, rfl, by decide⟩,
    _, rfl, List.forall_mem_singleton.mpr ?_⟩
  · exact ⟨_, _, rfl, rfl, rfl, rfl, _, rfl⟩
  · exact ⟨_, _, rfl, rfl, rfl, rfl, trivial⟩
  · exact ⟨_, "a", "m", .fileInput, .mixer, rfl, rfl, rfl, by decide, by decide, .inl rfl⟩

/-- A file that plays into a mixer is accepted. -/
theorem parseGraph_accepts_iff_file :
    ∃ graph, parseGraph standardLibrary filePlays = .ok graph ∧
      graph.nodes.map Node.label = [("a", .fileInput), ("m", .mixer)] :=
  (parseGraph_accepts_iff ⟨rfl, rfl⟩).mpr flows_filePlays

end HermesFlow.Infra
