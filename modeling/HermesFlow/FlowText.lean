import HermesFlow.FlowAcceptance
import HermesFlow.GraphFaithful
import HermesFlow.NodeOrigin

/-!
# What the text of a flow says

A flow describes nodes with ids, and its edges lead from one id to another: they lead on to the
next node, give a file its options or give a mixer an input. The graph of an accepted flow says the
same, with positions in place of ids.
-/

namespace HermesFlow.Infra

/-- What an element of `nodes` says of its node. -/
inductive Description where
  | fileInput (fileName : String)
  | mixer
  | delay (milliseconds : ℚ)
  | clients
  | fileOptions (gain pitchShift : ℚ)

/-- The kind of node that is described. -/
def Description.kind : Description → NodeKind
  | .fileInput _ => .fileInput
  | .mixer => .mixer
  | .delay _ => .delay
  | .clients => .clients
  | .fileOptions _ _ => .fileOptions

/-- A flow without its syntax. -/
structure Flow where
  /-- The nodes by their ids. -/
  nodes : List (String × Description)
  /-- The edges, from id to id. -/
  edges : List (String × String)
  /-- The id to start at, if there is one. -/
  start : Option String

section Read

variable (lib : Library)

/-- What the data of a node says, by the name of its type. -/
def describe (type : String) (data : JsonObject) : Option Description :=
  if type = "fileInput" then (stringAt data "fileName").map .fileInput
  else if type = "mixer" then some .mixer
  else if type = "delay" then ((data.lookup "delay").bind (Json.asFloat lib)).map .delay
  else if type = "clients" then some .clients
  else if type = "fileOptions" then do
    let gain ← (data.lookup "gain").bind (Json.asDouble lib)
    let pitchShift ← (data.lookup "pitch_shift").bind (Json.asDouble lib)
    return .fileOptions gain pitchShift
  else none

/-- An element of `nodes`. -/
def describedNode (v : Json) : Option (String × Description) := do
  let obj ← v.asObject
  let id ← stringAt obj "id"
  let type ← stringAt obj "type"
  let data ← (obj.lookup "data").bind Json.asObject
  let description ← describe lib type data
  return (id, description)

/-- An element of `edges`. -/
def endIds (v : Json) : Option (String × String) := do
  let edge ← v.asObject
  let source ← stringAt edge "source"
  let target ← stringAt edge "target"
  return (source, target)

/-- The id under `start_node`. -/
def startId (o : JsonObject) : Option String := do
  let flow ← (o.lookup "flow").bind Json.asObject
  let start ← (flow.lookup "start_node").bind Json.asObject
  stringAt start "id"

/-- The flow of a text. -/
def flowOfText (o : JsonObject) : Flow where
  nodes := (flowArray o "nodes").filterMap (describedNode lib)
  edges := (flowArray o "edges").filterMap endIds
  start := startId o

end Read

namespace Flow

variable (flow : Flow)

/-- The node of an id: the last one that has it. -/
def node (id : String) : Option Description := flow.nodes.reverse.lookup id

/-- The kind of the node with an id. -/
def kind (id : String) : Option NodeKind := (flow.node id).map Description.kind

/-- The edge gives a file its options. -/
def SetsOptions (edge : String × String) : Prop :=
  flow.kind edge.1 = some .fileOptions ∧ flow.kind edge.2 = some .fileInput

/-- The edge gives a mixer an input. -/
def Mixes (edge : String × String) : Prop :=
  flow.kind edge.1 = some .fileInput ∧ flow.kind edge.2 = some .mixer

/-- The edge leads on to the next node. -/
def LeadsOn (edge : String × String) : Prop :=
  (flow.kind edge.2 = some .fileInput ∨ flow.kind edge.2 = some .mixer ∨
    flow.kind edge.2 = some .delay) ∧ ¬flow.SetsOptions edge

instance (edge : String × String) : Decidable (flow.SetsOptions edge) :=
  inferInstanceAs (Decidable (_ ∧ _))

instance (edge : String × String) : Decidable (flow.Mixes edge) :=
  inferInstanceAs (Decidable (_ ∧ _))

instance (edge : String × String) : Decidable (flow.LeadsOn edge) :=
  inferInstanceAs (Decidable (_ ∧ _))

/-- The next node, that of the last edge that leads on. -/
def next (id : String) : Option String :=
  ((flow.edges.filter fun edge => flow.LeadsOn edge ∧ id = edge.1).map (·.2)).getLast?

/-- The options of a file, those of the last edge that sets them. -/
def options (id : String) : Option String :=
  ((flow.edges.filter fun edge => flow.SetsOptions edge ∧ id = edge.2).map (·.1)).getLast?

/-- The inputs of a mixer, in the order of their edges. -/
def inputs (id : String) : List String :=
  (flow.edges.filter fun edge => flow.Mixes edge ∧ id = edge.2).map (·.1)

end Flow

/-- The data of a node that is described so. -/
def Description.Fits (lib : Library) : Description → NodeData → Prop
  | .fileInput name, .fileInput fileName filePath _ =>
    fileName = name ∧ filePath = DOWNLOADS_DIR ++ name
  | .mixer, .mixer _ => True
  | .delay milliseconds, .delay totalFrames => totalFrames = delayFrames lib milliseconds
  | .clients, .clients _ => True
  | .fileOptions gain pitchShift, .fileOptions gain' pitchShift' =>
    gain' = gain ∧ pitchShift' = pitchShift
  | _, _ => False

section Fits

variable {lib : Library} {description : Description} {data : NodeData}

/-- The data that fit a description are of its kind. -/
theorem Description.Fits.kind (h : description.Fits lib data) : data.kind = description.kind := by
  cases description <;> cases data <;> first | rfl | exact h.elim

end Fits

/-- An id leads to the last of the nodes that has it. -/
def Found (lib : Library) (nodes : List (String × Description)) (graph : Graph) : Prop :=
  ∀ id p, graph.nodeMap id = some p →
    ∃ node description, graph.nodes[p]? = some node ∧
      nodes.reverse.lookup id = some description ∧ description.Fits lib node.data

/-- A node that fits is found after it is added. -/
theorem Found.addNode {lib : Library} {nodes : List (String × Description)} {graph : Graph}
    (h : Found lib nodes graph) {node : Node} {description : Description}
    (hfits : description.Fits lib node.data) :
    Found lib (nodes ++ [(node.id, description)]) (graph.addNode node) := by
  intro id p hp
  rw [List.reverse_append, List.reverse_singleton, List.singleton_append]
  simp only [Graph.addNode, Function.update_apply] at hp
  by_cases hid : id = node.id
  · rw [if_pos hid] at hp
    obtain rfl := Option.some.inj hp
    refine ⟨node, description, List.getElem?_concat_length, ?_, hfits⟩
    rw [hid, List.lookup_cons_self]
  · rw [if_neg hid] at hp
    obtain ⟨old, before, hold, hlookup, hbefore⟩ := h id p hp
    refine ⟨old, before, ?_, ?_, hbefore⟩
    · change (graph.nodes ++ [node])[p]? = some old
      rw [List.getElem?_append_left (List.getElem?_eq_some_iff.mp hold).1, hold]
    · rw [List.lookup_cons, beq_false_of_ne hid, hlookup]

/-- The position of the node of an id. -/
def Graph.position (graph : Graph) (id : String) : ℕ := (graph.nodeMap id).getD 0

section Ids

variable {lib : Library} {o : JsonObject} {graph : Graph}

/-- The nodes of an edge are those of its ids. -/
theorem endIds_of_edgeEnds {nodeMap : String → Option ℕ} {v : Json} {edge : ℕ × ℕ}
    (h : edgeEnds nodeMap v = some edge) :
    ∃ ids, endIds v = some ids ∧ nodeMap ids.1 = some edge.1 ∧ nodeMap ids.2 = some edge.2 := by
  simp only [edgeEnds, Option.bind_eq_bind, Option.bind_eq_some_iff, Option.pure_def] at h
  obtain ⟨obj, hobj, source, hsource, target, htarget, p, hp, q, hq, hedge⟩ := h
  cases hedge
  refine ⟨(source, target), ?_, hp, hq⟩
  simp only [endIds, hobj, hsource, htarget, Option.bind_eq_bind, Option.bind_some]
  rfl

/-- The ends of an edge of the text are nodes. -/
theorem Parsed.ends (h : Parsed o graph) {edge : String × String}
    (hedge : edge ∈ (flowOfText lib o).edges) :
    ∃ p q, graph.nodeMap edge.1 = some p ∧ graph.nodeMap edge.2 = some q := by
  obtain ⟨v, hv, hids⟩ := List.mem_filterMap.mp hedge
  obtain ⟨_, -, hends⟩ := h.edgeEnds_of_mem hv
  obtain ⟨ids, hids', hp, hq⟩ := endIds_of_edgeEnds hends
  obtain rfl := Option.some.inj (hids.symm.trans hids')
  exact ⟨_, _, hp, hq⟩

/-- The kind of an id is that of its node. -/
theorem Found.kind {flow : Flow} (h : Found lib flow.nodes graph) {id : String} {p : ℕ}
    (hp : graph.nodeMap id = some p) : kindAt graph.nodes p = flow.kind id := by
  obtain ⟨node, description, hnode, hlookup, hfits⟩ := h id p hp
  have hdescribed : flow.node id = some description := hlookup
  rw [kindAt, hnode, Option.map_some, Flow.kind, hdescribed, Option.map_some]
  exact congrArg some hfits.kind

end Ids

end HermesFlow.Infra
