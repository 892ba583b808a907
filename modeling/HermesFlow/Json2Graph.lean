import HermesFlow.NodeRegistry

/-!
# The graph of a flow

`parse_graph` creates the nodes of a flow, looks its start node up and applies
its edges one by one. A pointer to a node is its position in the list that owns
the nodes; the map from ids keeps the last node of an id.
-/

namespace HermesFlow.Infra

/-- `Node`, as far as the parser sets it. -/
structure Node where
  /-- `id_`. -/
  id : String
  /-- `target_`. -/
  target : Option ℕ
  /-- What the node is made of. -/
  data : NodeData

/-- `kind`. -/
def Node.kind (node : Node) : NodeKind := node.data.kind

/-- `Graph`. -/
structure Graph where
  /-- The nodes in the order of the text. -/
  nodes : List Node
  /-- `node_map`. -/
  nodeMap : String → Option ℕ
  /-- `start_node`. -/
  startNode : Option ℕ
  /-- `file_nodes`. -/
  fileNodes : List ℕ
  /-- `mixer_nodes`. -/
  mixerNodes : List ℕ
  /-- `clients_node`. -/
  clientsNode : Option ℕ

/-- `Graph{}`. -/
def Graph.empty : Graph := ⟨[], fun _ => none, none, [], [], none⟩

/-- Add a node to the indexes, and own it. -/
def Graph.addNode (graph : Graph) (node : Node) : Graph :=
  let position := graph.nodes.length
  { graph with
    nodes := graph.nodes ++ [node]
    nodeMap := Function.update graph.nodeMap node.id (some position)
    fileNodes := if node.kind = .fileInput then graph.fileNodes ++ [position] else graph.fileNodes
    mixerNodes := if node.kind = .mixer then graph.mixerNodes ++ [position] else graph.mixerNodes
    clientsNode := if node.kind = .clients then some position else graph.clientsNode }

/-- One turn of the loop of `parse_nodes`. -/
def parseNode (lib : Library) (graph : Graph) (v : Json) : Except Failure Graph := do
  let obj ← objectOr v "Node must be an object"
  let id ← requireString lib obj "id"
  let type ← requireString lib obj "type"
  let data ← requireObject lib obj "data"
  let data ← createNode lib type data
  if data.kind = .clients ∧ graph.clientsNode.isSome then
    .error (parseError "Multiple Clients nodes are not supported")
  else .ok (graph.addNode ⟨id, none, data⟩)

/-- `parse_nodes`. -/
def parseNodes (lib : Library) (graph : Graph) (nodesArr : List Json) : Except Failure Graph :=
  nodesArr.foldlM (parseNode lib) graph

/-- `set_start_node`. -/
def setStartNode (lib : Library) (flowObj : JsonObject) (graph : Graph) : Except Failure Graph := do
  let startObj ← requireObject lib flowObj "start_node"
  let id ← requireString lib startObj "id"
  match graph.nodeMap id with
  | none => .error (parseError ("Start node ID not found: " ++ id))
  | some position => .ok { graph with startNode := some position }

/-- `set_next`. -/
def Node.setNext (node : Node) (target : ℕ) : Node := { node with target := some target }

/-- `set_options`. -/
def Node.setOptions (node : Node) (optionsNode : ℕ) : Node :=
  match node.data with
  | .fileInput name path _ => { node with data := .fileInput name path (some optionsNode) }
  | _ => node

/-- `inputs_.push_back`. -/
def Node.addInput (node : Node) (source : ℕ) : Node :=
  match node.data with
  | .mixer inputs => { node with data := .mixer (inputs ++ [source]) }
  | _ => node

/-- `wire_standard`: the source points to the target. -/
def wireStandard (nodes : List Node) (source target : ℕ) : List Node :=
  nodes.modify source (Node.setNext · target)

/-- `FileInputNode::connect_input`. -/
def connectFileInput (nodes : List Node) (target : ℕ) (source : ℕ) :
    NodeKind → Except String (List Node)
  | .mixer => .error "FileInput cannot receive input from Mixer."
  | .fileOptions => .ok (nodes.modify target (Node.setOptions · source))
  | .delay => .ok (wireStandard nodes source target)
  | .fileInput | .clients => .error "FileInput only accepts Delay or FileOptions."

/-- `MixerNode::connect_input`. -/
def connectMixer (nodes : List Node) (target source : ℕ) : NodeKind → Except String (List Node)
  | .mixer => .error "Mixer cannot connect to another Mixer."
  | .clients => .error "Mixer cannot accept ClientsNode as input."
  | .fileInput =>
    .ok (wireStandard (nodes.modify target (Node.addInput · source)) source target)
  | .delay => .ok (wireStandard nodes source target)
  | .fileOptions => .error "Mixer only accepts Delay or FileInput nodes."

/-- `DelayNode::connect_input`. -/
def connectDelay (nodes : List Node) (target source : ℕ) : NodeKind → Except String (List Node)
  | .clients => .error "DelayNode cannot accept ClientsNode."
  | .fileInput | .mixer | .delay | .fileOptions => .ok (wireStandard nodes source target)

/-- `connect_input` of a node, by the kind of the source; the error is its message. -/
def connectInput (nodes : List Node) (target : ℕ) (node : Node) (source : ℕ)
    (sourceKind : NodeKind) : Except String (List Node) :=
  match node.kind with
  | .fileInput => connectFileInput nodes target source sourceKind
  | .mixer => connectMixer nodes target source sourceKind
  | .delay => connectDelay nodes target source sourceKind
  | .clients => .ok nodes
  | .fileOptions => .error s!"Node type {node.id} does not accept inputs."

/-- The two ends of an edge. -/
def edgeIds (lib : Library) (v : Json) : Except Failure (String × String) := do
  let edge ← objectOr v "Edge must be an object"
  let source ← requireString lib edge "source"
  let target ← requireString lib edge "target"
  return (source, target)

/-- The two nodes of an edge. -/
def edgeNodes (graph : Graph) (ids : String × String) : Except Failure (ℕ × ℕ) :=
  match graph.nodeMap ids.1, graph.nodeMap ids.2 with
  | some source, some target => .ok (source, target)
  | _, _ => .error (parseError "Edge references missing node ID")

/-- Apply an edge; both pointers are those of nodes. -/
def applyEdge (nodes : List Node) (edge : ℕ × ℕ) : Except Failure (List Node) :=
  match nodes[edge.1]?, nodes[edge.2]? with
  | some source, some target =>
    if source.kind = .clients then .error (parseError "ClientsNode cannot be a source.")
    else (connectInput nodes edge.2 target edge.1 source.kind).mapError parseError
  | _, _ => .ok nodes

/-- One turn of the loop of `parse_edges`. -/
def parseEdge (lib : Library) (graph : Graph) (v : Json) : Except Failure Graph := do
  let ids ← edgeIds lib v
  let edge ← edgeNodes graph ids
  let nodes ← applyEdge graph.nodes edge
  return { graph with nodes := nodes }

/-- `parse_edges`. -/
def parseEdges (lib : Library) (graph : Graph) (edgesArr : List Json) : Except Failure Graph :=
  edgesArr.foldlM (parseEdge lib) graph

/-- `parse_graph`. -/
def parseGraph (lib : Library) (o : JsonObject) : Except Failure Graph := do
  let flow ← requireObject lib o "flow"
  let nodesArr ← requireArray lib flow "nodes"
  let graph ← parseNodes lib .empty nodesArr
  let graph ← setStartNode lib flow graph
  let edgesArr ← requireArray lib flow "edges"
  parseEdges lib graph edgesArr

end HermesFlow.Infra
