import HermesFlow.NodeOrigin
import HermesFlow.Truncation
import Mathlib.Tactic.NormNum

/-!
# Options and the range of integers

The delay of a node and the gain of a file are numbers of the request. They are
converted to integers: a delay to milliseconds and to frames when its node is
made, and each sample with its gain before it is clamped. Floating-point numbers
are rationals here.
-/

namespace HermesFlow.Infra

open Truncation

/-- The `data` object of an element of `nodes` with a type. -/
def dataOf (type : String) (v : Json) : Option JsonObject :=
  match v.asObject with
  | some obj => if stringAt obj "type" = some type then (obj.lookup "data").bind Json.asObject else none
  | none => none

/-- The `delay` of a delay node of the flow. -/
def delayOption (lib : Library) (v : Json) : Option ℚ :=
  (dataOf "delay" v).bind fun data => (data.lookup "delay").bind (Json.asFloat lib)

/-- The `gain` of an options node of the flow. -/
def gainOption (lib : Library) (v : Json) : Option ℚ :=
  (dataOf "fileOptions" v).bind fun data => (data.lookup "gain").bind (Json.asDouble lib)

/-- The conversions of `DelayNode(size_t)` are in range: that of the argument, and
that of the frames. -/
structure DelayInRange (delay : ℚ) : Prop where
  /-- The milliseconds fit the type that they are converted to. -/
  milliseconds : InUnsigned 64 (toInt delay)
  /-- The number of frames fits the type of a total. -/
  totalFrames : InSigned 31 (toInt ((toInt delay : ℚ) / FRAME_DURATION))

/-- The numbers that `apply_effects` converts to `int32_t`, one for each sample. -/
def gainConversions (gain : ℚ) (samples : List ℤ) : List ℚ :=
  if gain ≠ 1 then samples.map fun sample : ℤ => (sample : ℚ) * gain else []

/-- The options that a node points to. -/
def Node.fileOptions (graph : Graph) (node : Node) : Option (ℚ × ℚ) :=
  match node.options.bind fun p => graph.nodes[p]?.map Node.data with
  | some (.fileOptions gain pitchShift) => some (gain, pitchShift)
  | _ => none

/-- Every number that is converted because of an option is in the range of its type. -/
structure ConversionsInRange (lib : Library) (o : JsonObject) (graph : Graph) : Prop where
  /-- Every delay is converted in range. -/
  delays : ∀ v ∈ flowArray o "nodes", ∀ delay, delayOption lib v = some delay → DelayInRange delay
  /-- Every sample is scaled in range. -/
  gains : ∀ node ∈ graph.nodes, ∀ gain pitchShift,
    node.fileOptions graph = some (gain, pitchShift) →
      ∀ samples, (∀ sample ∈ samples, InSigned 15 sample) →
        ∀ x ∈ gainConversions gain samples, InSigned 31 (toInt x)

/-- Delays are below `20 * 2^31` ms, and the gain of an options node that a file
points to is 1 or between `-2^16` and a little above `2^16`. -/
structure OptionsBounded (lib : Library) (o : JsonObject) (graph : Graph) : Prop where
  /-- No delay gives more frames than a total counts. -/
  delays : ∀ v ∈ flowArray o "nodes", ∀ delay, delayOption lib v = some delay → delay < 20 * 2 ^ 31
  /-- Every gain that a file points to keeps its samples below 32 bits. -/
  gains : ∀ node ∈ graph.nodes, ∀ p gain, node.options = some p →
    (flowArray o "nodes")[p]?.bind (gainOption lib) = some gain →
      gain = 1 ∨ -2 ^ 16 < gain ∧ gain < 2 ^ 16 + 1 / 2 ^ 15

/-- The delays whose conversions are in range. -/
theorem delayInRange_iff {delay : ℚ} (h : 0 ≤ delay) :
    DelayInRange delay ↔ delay < 20 * 2 ^ 31 := by
  have hmilliseconds : delay < 20 * 2 ^ 31 ↔ toInt delay < 20 * 2 ^ 31 := by
    rw [toInt_lt_iff (by norm_num)]
    norm_num
  have hnonneg : (0 : ℚ) ≤ toInt delay := by
    rw [toInt_of_nonneg h]
    exact_mod_cast Int.floor_nonneg.mpr h
  have hframes : InSigned 31 (toInt ((toInt delay : ℚ) / FRAME_DURATION)) ↔
      toInt delay < 20 * 2 ^ 31 := by
    rw [inSigned_toInt_iff, FRAME_DURATION, div_lt_iff₀ (by norm_num)]
    have hlow : -2 ^ 31 - 1 < (toInt delay : ℚ) / ((20 : ℕ) : ℚ) :=
      lt_of_lt_of_le (by norm_num : (-2 ^ 31 - 1 : ℚ) < 0) (by positivity)
    rw [and_iff_right hlow]
    constructor
    · intro hlt
      have hcast : (toInt delay : ℚ) < ((20 * 2 ^ 31 : ℤ) : ℚ) := by
        push_cast at hlt ⊢
        linarith
      exact_mod_cast hcast
    · intro hlt
      have hcast : (toInt delay : ℚ) < ((20 * 2 ^ 31 : ℤ) : ℚ) := by exact_mod_cast hlt
      push_cast at hcast ⊢
      linarith
  rw [hmilliseconds]
  constructor
  · exact fun hrange => hframes.mp hrange.totalFrames
  · intro hlt
    refine ⟨⟨by exact_mod_cast hnonneg, hlt.trans (by norm_num)⟩, hframes.mpr hlt⟩

/-- Where its conversions are in range, a delay has as many frames as fit into it. -/
theorem delayFrames_of_inRange {lib : Library} (hlib : lib.toFloat = id) {delay : ℚ}
    (h : DelayInRange delay) :
    delayFrames lib delay = toInt ((toInt delay : ℚ) / FRAME_DURATION) := by
  rw [delayFrames, hlib, toUnsigned_of_inUnsigned h.milliseconds]
  exact toSigned_of_inSigned h.totalFrames

/-- The delays that have a frame: those of the length of a frame, as long as the number of
their frames is an `int`. -/
theorem one_le_delayFrames_iff {lib : Library} (hlib : lib.toFloat = id) {delay : ℚ}
    (h : 0 ≤ delay) : 1 ≤ delayFrames lib delay ↔ 20 ≤ delay ∧ delay < 20 * 2 ^ 31 := by
  have hfloor : (0 : ℚ) ≤ ⌊delay⌋ := by exact_mod_cast Int.floor_nonneg.mpr h
  have hinRange : 1 ≤ delayFrames lib delay → DelayInRange delay := by
    intro hone
    rw [delayFrames, hlib] at hone
    have hframes := inSigned_of_toSigned_pos (Int.lt_of_lt_of_le Int.zero_lt_one hone)
    by_cases hmilliseconds : InUnsigned 64 (toInt delay)
    · rw [toUnsigned_of_inUnsigned hmilliseconds] at hframes
      exact ⟨hmilliseconds, hframes⟩
    · -- a delay that is no `size_t` has become zero
      rw [toUnsigned, if_neg hmilliseconds] at hone
      exact absurd hone (by decide +kernel)
  have hcount : DelayInRange delay → (1 ≤ delayFrames lib delay ↔ 20 ≤ delay) := by
    intro hrange
    rw [delayFrames_of_inRange hlib hrange, toInt_of_nonneg h, toInt_of_nonneg (by positivity),
      Int.le_floor, FRAME_DURATION, Int.cast_one, le_div_iff₀ (by norm_num), one_mul]
    have hinteger : ((20 : ℕ) : ℚ) = ((20 : ℤ) : ℚ) := by norm_num
    rw [hinteger, Int.cast_le, Int.le_floor]
    norm_num
  constructor
  · intro hone
    have hrange := hinRange hone
    exact ⟨(hcount hrange).mp hone, (delayInRange_iff h).mp hrange⟩
  · rintro ⟨hlong, hshort⟩
    exact (hcount ((delayInRange_iff h).mpr hshort)).mpr hlong

/-- A sample with a bounded gain stays in the range: the largest products are those of
the extreme samples. -/
theorem mul_gain_inSigned {gain : ℚ} (hlow : -2 ^ 16 < gain) (hhigh : gain < 2 ^ 16 + 1 / 2 ^ 15)
    {sample : ℤ} (hsample : InSigned 15 sample) : InSigned 31 (toInt ((sample : ℚ) * gain)) := by
  have hmin : (-2 ^ 15 : ℚ) ≤ sample := by exact_mod_cast hsample.1
  have hmax : (sample : ℚ) ≤ 2 ^ 15 - 1 := by
    have hlt := hsample.2
    exact_mod_cast (by omega : sample ≤ 2 ^ 15 - 1)
  rw [inSigned_toInt_iff]
  rcases le_or_gt 0 gain with hgain | hgain
  · have hleast : -2 ^ 15 * gain ≤ sample * gain := mul_le_mul_of_nonneg_right hmin hgain
    have hmost : sample * gain ≤ (2 ^ 15 - 1) * gain := mul_le_mul_of_nonneg_right hmax hgain
    norm_num at *
    constructor <;> linarith
  · have hleast : (2 ^ 15 - 1) * gain ≤ sample * gain := mul_le_mul_of_nonpos_right hmax hgain.le
    have hmost : sample * gain ≤ -2 ^ 15 * gain := mul_le_mul_of_nonpos_right hmin hgain.le
    norm_num at *
    constructor <;> linarith

/-- The gains with which all samples stay in the range. -/
theorem gainConversions_inSigned_iff (gain : ℚ) :
    (∀ samples, (∀ sample ∈ samples, InSigned 15 sample) →
      ∀ x ∈ gainConversions gain samples, InSigned 31 (toInt x)) ↔
      gain = 1 ∨ -2 ^ 16 < gain ∧ gain < 2 ^ 16 + 1 / 2 ^ 15 := by
  constructor
  · intro h
    by_contra hcon
    obtain ⟨hone, hbounds⟩ := not_or.mp hcon
    -- the least sample reaches both bounds first
    have hsample : InSigned 15 (-2 ^ 15) := by
      rw [InSigned]
      norm_num
    have hrange := h [-2 ^ 15] (by simpa using hsample) ((-2 ^ 15 : ℤ) * gain) (by
      rw [gainConversions, if_pos hone]
      exact List.mem_singleton_self _)
    rw [inSigned_toInt_iff] at hrange
    push_cast at hrange
    refine hbounds ⟨?_, ?_⟩
    · linarith [hrange.2]
    · linarith [hrange.1]
  · rintro h samples hsamples x hx
    by_cases hone : gain ≠ 1
    · rw [gainConversions, if_pos hone] at hx
      obtain ⟨sample, hsample, rfl⟩ := List.mem_map.mp hx
      obtain ⟨hlow, hhigh⟩ := h.resolve_left hone
      exact mul_gain_inSigned hlow hhigh (hsamples sample hsample)
    · rw [gainConversions, if_neg hone] at hx
      cases hx

section Flow

variable {lib : Library} {o : JsonObject} {graph : Graph}

/-- The `data` object of a created node. -/
theorem dataOf_eq_some {type : String} {v : Json} {data : JsonObject} (h : dataOf type v = some data)
    {node : Node} (hcreated : Created lib v node) :
    ∃ created, createNode lib type data = .ok created ∧ node.data.unlinked = created.unlinked := by
  obtain ⟨obj, type', data', created, rfl, htype, hdata, hcreate, heq⟩ := hcreated
  have htype' := requireString_ok htype
  have hdata' : (obj.lookup "data").bind Json.asObject = some data' := requireJson_ok hdata
  have hsame : (if stringAt obj "type" = some type then (obj.lookup "data").bind Json.asObject
    else none) = some data := h
  rw [htype', hdata'] at hsame
  split at hsame
  · rename_i heqType
    obtain rfl := Option.some.inj heqType
    obtain rfl := Option.some.inj hsame
    exact ⟨created, hcreate, heq⟩
  · cases hsame

/-- The data of a node are found under its type. -/
theorem dataOf_object {obj data : JsonObject} {type : String}
    (htype : requireString lib obj "type" = .ok type)
    (hdata : requireObject lib obj "data" = .ok data) : dataOf type (.object obj) = some data := by
  have htype' := requireString_ok htype
  have hdata' : (obj.lookup "data").bind Json.asObject = some data := requireJson_ok hdata
  change (if stringAt obj "type" = some type then (obj.lookup "data").bind Json.asObject
    else none) = some data
  rw [if_pos htype', hdata']

/-- The delay of an accepted node is not negative. -/
theorem delayOption_nonneg (h : parseGraph lib o = .ok graph) {v : Json}
    (hv : v ∈ flowArray o "nodes") {delay : ℚ} (hdelay : delayOption lib v = some delay) :
    0 ≤ delay := by
  obtain ⟨p, hp, rfl⟩ := List.getElem_of_mem hv
  obtain ⟨hlength, hget⟩ := List.forall₂_iff_get.mp (created_of_parseGraph h)
  obtain ⟨data, hdata, hdelay⟩ := Option.bind_eq_some_iff.mp hdelay
  obtain ⟨created, hcreate, -⟩ := dataOf_eq_some hdata (hget p hp (hlength ▸ hp))
  change createDelay lib data = .ok created at hcreate
  obtain ⟨delay', hdelay', hcreate⟩ := bind_ok hcreate
  have hsame : (data.lookup "delay").bind (Json.asFloat lib) = some delay' := requireJson_ok hdelay'
  obtain rfl := Option.some.inj (hsame.symm.trans hdelay)
  split at hcreate
  · cases hcreate
  · rename_i hneg
    exact not_lt.mp hneg

/-- The numbers of an options node are those of its `data` object. -/
theorem createFileOptions_ok {data : JsonObject} {created : NodeData}
    (h : createFileOptions lib data = .ok created) :
    ∃ gain pitchShift, created = .fileOptions gain pitchShift ∧
      (data.lookup "gain").bind (Json.asDouble lib) = some gain := by
  obtain ⟨gain, hgain, h⟩ := bind_ok h
  obtain ⟨pitchShift, -, h⟩ := bind_ok h
  exact ⟨gain, pitchShift, (Except.ok.inj h).symm, requireJson_ok hgain⟩

/-- Only the creator of options makes options. -/
theorem createNode_fileOptions {type : String} {data : JsonObject} {gain pitchShift : ℚ}
    (h : createNode lib type data = .ok (.fileOptions gain pitchShift)) :
    type = "fileOptions" ∧ createFileOptions lib data = .ok (.fileOptions gain pitchShift) := by
  cases createNode_creates h with
  | fileOptions hcreate => exact ⟨rfl, hcreate⟩

/-- Options have no pointers to lose. -/
theorem unlinked_eq_fileOptions {data : NodeData} {gain pitchShift : ℚ}
    (h : data.unlinked = .fileOptions gain pitchShift) : data = .fileOptions gain pitchShift := by
  cases data <;> cases h
  rfl

/-- The gain of an options node is that of the flow. -/
theorem gainOption_of_node (h : parseGraph lib o = .ok graph) {p : ℕ} (gain : ℚ) :
    (flowArray o "nodes")[p]?.bind (gainOption lib) = some gain ↔
      ∃ pitchShift, graph.nodes[p]?.map Node.data = some (.fileOptions gain pitchShift) := by
  obtain ⟨hlength, hget⟩ := List.forall₂_iff_get.mp (created_of_parseGraph h)
  constructor
  · intro hgain
    obtain ⟨v, hv, hgain⟩ := Option.bind_eq_some_iff.mp hgain
    obtain ⟨hp, rfl⟩ := List.getElem?_eq_some_iff.mp hv
    obtain ⟨data, hdata, hgain⟩ := Option.bind_eq_some_iff.mp hgain
    obtain ⟨created, hcreate, hnode⟩ := dataOf_eq_some hdata (hget p hp (hlength ▸ hp))
    obtain ⟨gain', pitchShift, rfl, hgain'⟩ := createFileOptions_ok hcreate
    obtain rfl := Option.some.inj (hgain'.symm.trans hgain)
    refine ⟨pitchShift, ?_⟩
    rw [List.getElem?_eq_getElem (hlength ▸ hp), Option.map_some]
    exact congrArg some (unlinked_eq_fileOptions hnode)
  · rintro ⟨pitchShift, hdata⟩
    obtain ⟨node, hnode, hdata⟩ := Option.map_eq_some_iff.mp hdata
    obtain ⟨hp, rfl⟩ := List.getElem?_eq_some_iff.mp hnode
    have hp' : p < (flowArray o "nodes").length := hlength ▸ hp
    obtain ⟨obj, type, data, created, hv, htype, hobj, hcreate, heq⟩ := hget p hp' hp
    rw [List.get_eq_getElem, hdata] at heq
    obtain rfl := unlinked_eq_fileOptions heq.symm
    obtain ⟨rfl, hcreate⟩ := createNode_fileOptions hcreate
    obtain ⟨gain', pitchShift', hcreated, hgain⟩ := createFileOptions_ok hcreate
    obtain ⟨rfl, rfl⟩ := NodeData.fileOptions.inj hcreated
    have hv' : (flowArray o "nodes")[p]? = some (.object obj) := by
      rw [List.getElem?_eq_getElem hp']
      exact congrArg some hv
    rw [hv', Option.bind_some, gainOption, dataOf_object htype hobj]
    exact hgain

/-- The conversions of an accepted flow are in range exactly when its options are bounded. -/
theorem conversionsInRange_iff (h : parseGraph lib o = .ok graph) :
    ConversionsInRange lib o graph ↔ OptionsBounded lib o graph := by
  constructor
  · rintro ⟨hdelays, hgains⟩
    refine ⟨fun v hv delay hdelay => ?_, fun node hnode p gain hp hgain => ?_⟩
    · exact (delayInRange_iff (delayOption_nonneg h hv hdelay)).mp (hdelays v hv delay hdelay)
    · obtain ⟨pitchShift, hdata⟩ := (gainOption_of_node h gain).mp hgain
      have hoptions : node.fileOptions graph = some (gain, pitchShift) := by
        rw [Node.fileOptions, hp, Option.bind_some, hdata]
      exact (gainConversions_inSigned_iff gain).mp (hgains node hnode gain pitchShift hoptions)
  · rintro ⟨hdelays, hgains⟩
    refine ⟨fun v hv delay hdelay => ?_, fun node hnode gain pitchShift hoptions => ?_⟩
    · exact (delayInRange_iff (delayOption_nonneg h hv hdelay)).mpr (hdelays v hv delay hdelay)
    · unfold Node.fileOptions at hoptions
      split at hoptions
      · rename_i gain' pitchShift' hdata
        obtain ⟨rfl, rfl⟩ := Prod.mk.inj (Option.some.inj hoptions)
        obtain ⟨p, hp, hdata⟩ := Option.bind_eq_some_iff.mp hdata
        exact (gainConversions_inSigned_iff gain').mpr
          (hgains node hnode p gain' hp ((gainOption_of_node h gain').mpr ⟨_, hdata⟩))
      · cases hoptions

end Flow

/-- A flow whose start is a delay node. -/
def delayFlow (delay : ℤ) : JsonObject :=
  flowOf [nodeJson "d" "delay" [("delay", .int64 delay)]] [] "d"

/-- A file that plays with a gain, and then a delay. -/
def boostedFlow (gain : ℚ) (delay : ℤ) : JsonObject :=
  flowOf [nodeJson "f" "fileInput" [("fileName", .string "a.wav")],
    nodeJson "o" "fileOptions" [("gain", .double gain), ("pitch_shift", .double 1)],
    nodeJson "d" "delay" [("delay", .int64 delay)]] [edgeJson "o" "f", edgeJson "f" "d"] "f"

/-- A gain of a half more and a delay of two seconds. -/
theorem conversionsInRange_boosted :
    ∃ graph, parseGraph plainLibrary (boostedFlow (3 / 2) 2000) = .ok graph ∧
      (∃ node ∈ graph.nodes, node.fileOptions graph = some (3 / 2, 1)) ∧
      ConversionsInRange plainLibrary (boostedFlow (3 / 2) 2000) graph := by
  refine ⟨_, rfl, ⟨_, List.mem_cons_self, rfl⟩,
    (@conversionsInRange_iff plainLibrary (boostedFlow (3 / 2) 2000) _ rfl).mpr
      ⟨fun v hv delay hdelay => ?_, fun node hnode p gain hp hgain => ?_⟩⟩
  · -- only the third node has a delay
    rcases List.mem_cons.mp hv with rfl | hv
    · cases hdelay
    rcases List.mem_cons.mp hv with rfl | hv
    · cases hdelay
    obtain rfl := List.mem_singleton.mp hv
    obtain rfl := Option.some.inj hdelay
    change ((2000 : ℤ) : ℚ) < _
    norm_num
  · -- only the file has options, which are the second node
    rcases List.mem_cons.mp hnode with rfl | hnode
    · obtain rfl := Option.some.inj hp
      obtain rfl := Option.some.inj hgain
      right
      norm_num
    rcases List.mem_cons.mp hnode with rfl | hnode
    · cases hp
    obtain rfl := List.mem_singleton.mp hnode
    cases hp

/-- A delay of more than `20 * 2^31` ms is accepted; its frames are no `int`. -/
theorem delay_out_of_range :
    ∃ graph, parseGraph plainLibrary (delayFlow (10 ^ 12)) = .ok graph ∧
      ¬ ConversionsInRange plainLibrary (delayFlow (10 ^ 12)) graph := by
  refine ⟨_, rfl, fun h => ?_⟩
  have hdelay := h.delays _ (List.mem_singleton_self _) ((10 ^ 12 : ℤ) : ℚ) rfl
  have hbound := (delayInRange_iff (by norm_num)).mp hdelay
  norm_num at hbound

end HermesFlow.Infra
