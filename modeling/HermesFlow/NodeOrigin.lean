import HermesFlow.GraphInvariant
import Mathlib.Data.List.Forall2

/-!
# Where the nodes of a graph come from

Each node of an accepted graph is that of the element at its position in the
flow. The edges change nothing of it but its pointers.
-/

namespace HermesFlow.Infra

/-- A node's data without its pointers. -/
def NodeData.unlinked : NodeData → NodeData
  | .fileInput name path _ => .fileInput name path none
  | .mixer _ => .mixer []
  | data => data

/-- The node was created from the element. -/
def Created (lib : Library) (v : Json) (node : Node) : Prop :=
  ∃ obj type data created, v = .object obj ∧ requireString lib obj "type" = .ok type ∧
    requireObject lib obj "data" = .ok data ∧ createNode lib type data = .ok created ∧
    node.data.unlinked = created.unlinked

section Connect

variable {kind : ℕ → Option NodeKind} {edge : ℕ × ℕ} {p : ℕ} {node : Node}

/-- Setting options keeps what a node was made of. -/
theorem unlinked_setOptions (node : Node) (source : ℕ) :
    (node.setOptions source).data.unlinked = node.data.unlinked := by
  unfold Node.setOptions
  split
  · rename_i hdata
    rw [hdata]
    rfl
  · rfl

/-- An input keeps what a node was made of. -/
theorem unlinked_addInput (node : Node) (source : ℕ) :
    (node.addInput source).data.unlinked = node.data.unlinked := by
  unfold Node.addInput
  split
  · rename_i hdata
    rw [hdata]
    rfl
  · rfl

/-- An edge keeps what a node was made of. -/
theorem unlinked_connect : (node.connect kind edge p).data.unlinked = node.data.unlinked := by
  have hnext : ∀ (node : Node) (target : ℕ), (node.setNext target).data = node.data :=
    fun _ _ => rfl
  simp only [Node.connect, apply_ite Node.data, apply_ite NodeData.unlinked, hnext,
    unlinked_addInput, unlinked_setOptions, ite_self]

/-- Edges keep what a node was made of. -/
theorem unlinked_connectAll (edges : List (ℕ × ℕ)) :
    (node.connectAll kind edges p).data.unlinked = node.data.unlinked := by
  induction edges generalizing node with
  | nil => rfl
  | cons edge edges ih => exact ih.trans unlinked_connect

end Connect

variable {lib : Library} {o : JsonObject} {graph : Graph}

/-- A node that is parsed was made from its data. -/
theorem parseNode_created {graph graph' : Graph} {v : Json}
    (h : parseNode lib graph v = .ok graph') :
    ∃ node, Created lib v node ∧ graph' = graph.addNode node := by
  unfold parseNode at h
  obtain ⟨obj, hobj, h⟩ := bind_ok h
  obtain ⟨id, -, h⟩ := bind_ok h
  obtain ⟨type, htype, h⟩ := bind_ok h
  obtain ⟨data, hdata, h⟩ := bind_ok h
  obtain ⟨created, hcreated, h⟩ := bind_ok h
  split at h
  · cases h
  · cases h
    have hv : v = .object obj := by
      have hobject := objectOr_ok hobj
      cases v with
      | object fields => exact congrArg _ (Option.some.inj hobject)
      | _ => cases hobject
    exact ⟨_, ⟨obj, type, data, created, hv, htype, hdata, hcreated, rfl⟩, rfl⟩

/-- The nodes that `parse_nodes` accepts come from its elements. -/
theorem created_of_parseNodes {nodesArr : List Json} (h : parseNodes lib .empty nodesArr = .ok graph) :
    List.Forall₂ (Created lib) nodesArr graph.nodes := by
  have hstep : ∀ done b v b', List.Forall₂ (Created lib) done b.nodes → parseNode lib b v = .ok b' →
      List.Forall₂ (Created lib) (done ++ [v]) b'.nodes := by
    intro done b v b' hb hparse
    obtain ⟨node, hcreated, rfl⟩ := parseNode_created hparse
    exact List.rel_append hb (.cons hcreated .nil)
  have hstart : List.Forall₂ (Created lib) [] Graph.empty.nodes := .nil
  exact foldlM_ok hstep hstart h

/-- Edges keep where the nodes come from. -/
theorem Wired.created {graph' : Graph} {edges : List (ℕ × ℕ)} {elements : List Json}
    (hwired : Wired graph edges graph') (h : List.Forall₂ (Created lib) elements graph.nodes) :
    List.Forall₂ (Created lib) elements graph'.nodes := by
  obtain ⟨hlength, hget⟩ := List.forall₂_iff_get.mp h
  refine List.forall₂_iff_get.mpr ⟨hlength.trans hwired.length.symm, fun p hp hp' => ?_⟩
  have hp'' : p < graph.nodes.length := hwired.length ▸ hp'
  have hnode := hwired.nodes p
  rw [List.getElem?_eq_getElem hp', List.getElem?_eq_getElem hp'', Option.map_some] at hnode
  obtain ⟨obj, type, data, created, hv, htype, hdata, hcreated, heq⟩ := hget p hp hp''
  refine ⟨obj, type, data, created, hv, htype, hdata, hcreated, ?_⟩
  rw [List.get_eq_getElem, Option.some.inj hnode, unlinked_connectAll]
  exact heq

/-- The nodes of an accepted graph are those of the flow, position by position. -/
theorem created_of_parseGraph (h : parseGraph lib o = .ok graph) :
    List.Forall₂ (Created lib) (flowArray o "nodes") graph.nodes := by
  obtain ⟨parsed, startId, start, edges, hparsed, -, -, hwired⟩ := parseGraph_stages h
  have hcreated := created_of_parseNodes hparsed
  exact hwired.created hcreated

end HermesFlow.Infra
