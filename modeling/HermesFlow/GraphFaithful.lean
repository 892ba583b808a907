import HermesFlow.GraphInvariant
import Mathlib.Data.List.Count

/-!
# Faithfulness of a parsed graph

An edge is applied without a look at the earlier ones: it appends to the inputs
of a mixer and overwrites a pointer. So a graph holds each of its edges once
exactly as long as no input edge is repeated and no two edges set one pointer
differently.
-/

namespace HermesFlow.Infra

/-- Where the node at a position points. -/
def targetAt (nodes : List Node) (p : ℕ) : Option ℕ := nodes[p]?.bind Node.target

/-- The options of the node at a position. -/
def optionsAt (nodes : List Node) (p : ℕ) : Option ℕ := nodes[p]?.bind Node.options

/-- The inputs of the node at a position. -/
def inputsAt (nodes : List Node) (p : ℕ) : List ℕ := (nodes[p]?.map Node.inputs).getD []

/-- The graph holds an edge, once. -/
structure Kept (graph : Graph) (edge : ℕ × ℕ) : Prop where
  /-- An input is there once. -/
  input : IsInput (kindAt graph.nodes) edge → (inputsAt graph.nodes edge.2).count edge.1 = 1
  /-- The options are those of the edge. -/
  options : IsOptions (kindAt graph.nodes) edge → optionsAt graph.nodes edge.2 = some edge.1
  /-- The pointer is that of the edge. -/
  next : IsWire (kindAt graph.nodes) edge → targetAt graph.nodes edge.1 = some edge.2

/-- An edge of the flow leads from one node to another. -/
def HasEdge (o : JsonObject) (graph : Graph) (source target : ℕ) : Prop :=
  ∃ v ∈ flowArray o "edges", edgeEnds graph.nodeMap v = some (source, target)

/-- The graph holds each edge of the flow once, and nothing else. -/
structure Faithful (o : JsonObject) (graph : Graph) : Prop where
  /-- Every edge of the flow is kept. -/
  kept : ∀ v ∈ flowArray o "edges", ∃ edge, edgeEnds graph.nodeMap v = some edge ∧ Kept graph edge
  /-- Every input is an edge. -/
  inputs : ∀ source target, source ∈ inputsAt graph.nodes target → HasEdge o graph source target
  /-- All options are an edge. -/
  options : ∀ source target, optionsAt graph.nodes target = some source →
    HasEdge o graph source target
  /-- Every pointer is an edge. -/
  next : ∀ source target, targetAt graph.nodes source = some target → HasEdge o graph source target

/-- No input edge is repeated, and no two edges set one pointer differently. -/
structure Consistent (kind : ℕ → Option NodeKind) (edges : List (ℕ × ℕ)) : Prop where
  /-- No input edge is repeated. -/
  inputs : (edges.filter (IsInput kind ·)).Nodup
  /-- No two edges give one node different options. -/
  options : ∀ edge ∈ edges, ∀ other ∈ edges, IsOptions kind edge → IsOptions kind other →
    edge.2 = other.2 → edge.1 = other.1
  /-- No two edges point one node to different ones. -/
  wires : ∀ edge ∈ edges, ∀ other ∈ edges, IsWire kind edge → IsWire kind other →
    edge.1 = other.1 → edge.2 = other.2

/-- The last value of a key is that of each of its entries if and only if they
all have the same. -/
theorem getLast?_eq_iff {α κ β : Type} [DecidableEq κ] (key : α → κ) (value : α → β)
    (q : α → Prop) [DecidablePred q] (l : List α) :
    (∀ a ∈ l, q a →
        ((l.filter fun b => q b ∧ key a = key b).map value).getLast? = some (value a)) ↔
      ∀ a ∈ l, ∀ b ∈ l, q a → q b → key a = key b → value a = value b := by
  constructor
  · intro h a ha b hb hqa hqb hkey
    have hlast := h a ha hqa
    rw [hkey, h b hb hqb] at hlast
    exact (Option.some.inj hlast).symm
  · intro h a ha hqa
    have hmem : value a ∈ (l.filter fun b => q b ∧ key a = key b).map value :=
      List.mem_map_of_mem (List.mem_filter.mpr ⟨ha, by simp [hqa]⟩)
    obtain ⟨last, hlast⟩ := Option.isSome_iff_exists.mp
      (List.getLast?_isSome.mpr (List.ne_nil_of_mem hmem))
    obtain ⟨b, hb, rfl⟩ := List.mem_map.mp (List.mem_of_getLast? hlast)
    obtain ⟨hbl, hqb, hkey⟩ : b ∈ l ∧ q b ∧ key a = key b := by simpa using List.mem_filter.mp hb
    rw [hlast, h a ha b hbl hqa hqb hkey]

/-- An input counts for a mixer as often as its edge to it. -/
theorem count_inputSources (kind : ℕ → Option NodeKind) (edges : List (ℕ × ℕ))
    (source target : ℕ) :
    (inputSources kind edges target).count source =
      (edges.filter (IsInput kind ·)).count (source, target) := by
  rw [inputSources, List.count, List.count, List.countP_map, List.countP_filter, List.countP_filter]
  refine List.countP_congr fun edge _ => ?_
  obtain ⟨s, t⟩ := edge
  simp only [Function.comp_apply, Bool.and_eq_true, beq_iff_eq, decide_eq_true_eq, Prod.mk.injEq]
  tauto

section Parsed

variable {o : JsonObject} {graph : Graph}

/-- A node points where its last wire goes. -/
theorem Parsed.targetAt (h : Parsed o graph) {p : ℕ} (hp : p < graph.nodes.length) :
    targetAt graph.nodes p = (wiredTo (kindAt graph.nodes) (flowEdges graph o) p).getLast? := by
  have hnode := List.getElem?_eq_getElem hp
  rw [Infra.targetAt, hnode, Option.bind_some, h.target p _ hnode]

/-- A node's options are the last ones that an edge gives it. -/
theorem Parsed.optionsAt (h : Parsed o graph) {p : ℕ} (hp : p < graph.nodes.length) :
    optionsAt graph.nodes p =
      (optionSources (kindAt graph.nodes) (flowEdges graph o) p).getLast? := by
  have hnode := List.getElem?_eq_getElem hp
  rw [Infra.optionsAt, hnode, Option.bind_some, h.options p _ hnode]

/-- A mixer's inputs are what the edges give it. -/
theorem Parsed.inputsAt (h : Parsed o graph) {p : ℕ} (hp : p < graph.nodes.length) :
    inputsAt graph.nodes p = inputSources (kindAt graph.nodes) (flowEdges graph o) p := by
  have hnode := List.getElem?_eq_getElem hp
  rw [Infra.inputsAt, hnode, Option.map_some, Option.getD_some, h.inputs p _ hnode]

/-- An edge between two nodes is one of the flow. -/
theorem hasEdge_of_mem {source target : ℕ} (h : (source, target) ∈ flowEdges graph o) :
    HasEdge o graph source target := by
  obtain ⟨v, hv, hends⟩ := List.mem_filterMap.mp h
  exact ⟨v, hv, hends⟩

/-- Each edge of an accepted flow is one between two nodes. -/
theorem Parsed.edgeEnds_of_mem (h : Parsed o graph) {v : Json} (hv : v ∈ flowArray o "edges") :
    ∃ edge ∈ flowEdges graph o, edgeEnds graph.nodeMap v = some edge := by
  have hmem : edgeEnds graph.nodeMap v ∈ (flowEdges graph o).map some := by
    rw [← h.edges]
    exact List.mem_map_of_mem hv
  obtain ⟨edge, hedge, hends⟩ := List.mem_map.mp hmem
  exact ⟨edge, hedge, hends.symm⟩

/-- Edges join nodes of the graph. -/
theorem Parsed.edge_owned (h : Parsed o graph) {edge : ℕ × ℕ} (hedge : edge ∈ flowEdges graph o) :
    edge.1 < graph.nodes.length ∧ edge.2 < graph.nodes.length := by
  have hlength : (flowIds o).length = graph.nodes.length := by rw [← h.nodeIds, List.length_map]
  rw [← hlength]
  exact owned_of_mem_flowEdges h.mapped hedge

/-- Every pointer comes from an edge. -/
theorem Parsed.hasEdge_of_input (h : Parsed o graph) {source target : ℕ}
    (hsource : source ∈ Infra.inputsAt graph.nodes target) : HasEdge o graph source target := by
  have htarget : target < graph.nodes.length := by
    by_contra hout
    rw [Infra.inputsAt, List.getElem?_eq_none (Nat.le_of_not_lt hout)] at hsource
    exact absurd hsource List.not_mem_nil
  rw [h.inputsAt htarget] at hsource
  obtain ⟨edge, hedge, rfl⟩ := List.mem_map.mp hsource
  obtain ⟨hmem, hinput⟩ := List.mem_filter.mp hedge
  obtain ⟨-, rfl⟩ := of_decide_eq_true hinput
  exact hasEdge_of_mem hmem

/-- The options of a node come from an edge. -/
theorem Parsed.hasEdge_of_options (h : Parsed o graph) {source target : ℕ}
    (hsource : Infra.optionsAt graph.nodes target = some source) :
    HasEdge o graph source target := by
  obtain ⟨node, hnode, -⟩ := Option.bind_eq_some_iff.mp hsource
  rw [h.optionsAt (List.getElem?_eq_some_iff.mp hnode).1] at hsource
  obtain ⟨edge, hedge, rfl⟩ := List.mem_map.mp (List.mem_of_getLast? hsource)
  obtain ⟨hmem, hoptions⟩ := List.mem_filter.mp hedge
  obtain ⟨-, rfl⟩ := of_decide_eq_true hoptions
  exact hasEdge_of_mem hmem

/-- The pointer of a node comes from an edge. -/
theorem Parsed.hasEdge_of_target (h : Parsed o graph) {source target : ℕ}
    (htarget : Infra.targetAt graph.nodes source = some target) :
    HasEdge o graph source target := by
  obtain ⟨node, hnode, -⟩ := Option.bind_eq_some_iff.mp htarget
  rw [h.targetAt (List.getElem?_eq_some_iff.mp hnode).1] at htarget
  obtain ⟨edge, hedge, rfl⟩ := List.mem_map.mp (List.mem_of_getLast? htarget)
  obtain ⟨hmem, hwire⟩ := List.mem_filter.mp hedge
  obtain ⟨-, rfl⟩ := of_decide_eq_true hwire
  exact hasEdge_of_mem hmem

/-- All edges are kept exactly if they are consistent. -/
theorem Parsed.kept_iff (h : Parsed o graph) :
    (∀ edge ∈ flowEdges graph o, Kept graph edge) ↔
      Consistent (kindAt graph.nodes) (flowEdges graph o) := by
  have hwires := getLast?_eq_iff (fun edge : ℕ × ℕ => edge.1) (fun edge => edge.2)
    (IsWire (kindAt graph.nodes)) (flowEdges graph o)
  have hoptions := getLast?_eq_iff (fun edge : ℕ × ℕ => edge.2) (fun edge => edge.1)
    (IsOptions (kindAt graph.nodes)) (flowEdges graph o)
  constructor
  · intro hkept
    refine ⟨?_, hoptions.mp fun edge hedge hkind => ?_, hwires.mp fun edge hedge hkind => ?_⟩
    · rw [List.nodup_iff_count_eq_one]
      intro edge hedge
      obtain ⟨hmem, hinput⟩ := List.mem_filter.mp hedge
      have honce := (hkept edge hmem).input (of_decide_eq_true hinput)
      rwa [h.inputsAt (h.edge_owned hmem).2, count_inputSources] at honce
    · have hlast := (hkept edge hedge).options hkind
      rwa [h.optionsAt (h.edge_owned hedge).2] at hlast
    · have hlast := (hkept edge hedge).next hkind
      rwa [h.targetAt (h.edge_owned hedge).1] at hlast
  · intro hconsistent edge hedge
    refine ⟨fun hkind => ?_, fun hkind => ?_, fun hkind => ?_⟩
    · rw [h.inputsAt (h.edge_owned hedge).2, count_inputSources]
      exact List.nodup_iff_count_eq_one.mp hconsistent.inputs edge
        (List.mem_filter.mpr ⟨hedge, decide_eq_true hkind⟩)
    · rw [h.optionsAt (h.edge_owned hedge).2]
      exact hoptions.mpr hconsistent.options edge hedge hkind
    · rw [h.targetAt (h.edge_owned hedge).1]
      exact hwires.mpr hconsistent.wires edge hedge hkind

end Parsed

/-- An accepted graph is faithful if and only if no input edge is repeated, the
options of a file input come from one node, and the wires out of a node lead to
one node. -/
theorem faithful_iff_consistent {lib : Library} {o : JsonObject} {graph : Graph}
    (h : parseGraph lib o = .ok graph) :
    Faithful o graph ↔ Consistent (kindAt graph.nodes) (flowEdges graph o) := by
  have hparsed := parseGraph_ok h
  rw [← hparsed.kept_iff]
  constructor
  · intro hfaithful edge hedge
    obtain ⟨v, hv, hends⟩ := List.mem_filterMap.mp hedge
    obtain ⟨other, hother, hkept⟩ := hfaithful.kept v hv
    rw [hends] at hother
    cases hother
    exact hkept
  · intro hkept
    refine ⟨fun v hv => ?_, fun _ _ => hparsed.hasEdge_of_input,
      fun _ _ => hparsed.hasEdge_of_options, fun _ _ => hparsed.hasEdge_of_target⟩
    obtain ⟨edge, hedge, hends⟩ := hparsed.edgeEnds_of_mem hv
    exact ⟨edge, hends, hkept edge hedge⟩

/-- The flow with one file is kept faithfully. -/
theorem faithful_iff_consistent_file :
    ∃ graph, parseGraph plainLibrary filePlays = .ok graph ∧ Faithful filePlays graph := by
  refine ⟨_, rfl, (@faithful_iff_consistent plainLibrary filePlays _ rfl).mpr ⟨?_, ?_, ?_⟩⟩ <;>
    decide

/-- The same edge twice. -/
def repeatedEdge : JsonObject :=
  flowOf [nodeJson "a" "fileInput" [("fileName", .string "a.wav")], nodeJson "m" "mixer" []]
    [edgeJson "a" "m", edgeJson "a" "m"] "a"

/-- The mixer then has the file twice. -/
theorem not_faithful_repeated_edge :
    ¬∀ (lib : Library) (o : JsonObject) (graph : Graph), parseGraph lib o = .ok graph →
      Faithful o graph := by
  intro h
  obtain ⟨edge, hends, hkept⟩ := (h plainLibrary repeatedEdge _ rfl).kept (edgeJson "a" "m")
    (List.mem_cons_self)
  obtain rfl : edge = (0, 1) := (Option.some.inj hends).symm
  exact absurd (hkept.input (by decide)) (by decide)

end HermesFlow.Infra
