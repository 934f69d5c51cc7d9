import Layering.Proofs.Admission.Greedy
import Layering.Proofs.Admission.Table

/-!
# Weights in admission

Weights are carried through admission and never looked at. If the weight of each
edge of a graph is multiplied by a factor of its own, what is admitted or rejected
has its weight multiplied by the factor of its edge, and nothing else changes
(`Admission.ofGraph_scale`). Every graph is the one in which all edges weigh 1 with
its weights as factors (`Graph.scale_unweighted`), so two graphs with the same nodes
and edges have the same edges admitted and the same edges rejected, also in tables,
where the weights may become too large (`TableAdmission.weights_never_decide`).
-/

namespace Layering

/-- The edge with its weight multiplied by the factor of the edge. -/
def RejectedEdge.scale (f : Edge → Nat) (r : RejectedEdge) : RejectedEdge :=
  { r with weight := r.weight * f r.edge }

/-- What an edge was rejected for, without its weight. -/
def RejectedEdge.unweighted (r : RejectedEdge) : Edge × RejectReason := (r.edge, r.reason)

namespace Admission

variable {policy : LayerPolicy} {groups : List Group} {f : Edge → Nat} {a : Admission}

/-! ## Scaled admissions -/

/-- The edge with its weight multiplied by the factor of the edge. -/
def Candidate.scale (f : Edge → Nat) (c : Candidate) : Candidate :=
  { c with weight := c.weight * f c.edge }

/-- The admission with all weights multiplied by the factors of their edges. -/
def scale (f : Edge → Nat) (a : Admission) : Admission :=
  ⟨a.admitted.scale f, a.rejected.map (RejectedEdge.scale f)⟩

theorem scale_start (f : Edge → Nat) (groups : List Group) :
    (start groups).scale f = start groups := by
  rw [scale, start, Graph.scale_ofNodes, List.map_nil]

theorem candidatesFrom_scale (f : Edge → Nat) (raw : Graph) (groups : List Group) (s : Group) :
    candidatesFrom (raw.scale f) groups s = (candidatesFrom raw groups s).map (.scale f) := by
  rw [candidatesFrom, candidatesFrom, List.map_filterMap,
    Graph.successors_congr (Graph.edges_scale f raw)]
  refine List.filterMap_congr fun t ht => ?_
  obtain ⟨w, hw⟩ := Graph.adj_iff_exists_weight.1 (Graph.mem_successors.1 ht)
  rw [Graph.weight?_scale, hw, Option.map_some, Option.getD_some, Option.getD_some, Option.map_map]
  rfl

theorem candidates_scale (f : Edge → Nat) (raw : Graph) (groups : List Group)
    (policy : LayerPolicy) :
    candidates (raw.scale f) groups policy = (candidates raw groups policy).map (.scale f) := by
  rw [candidates, candidates, List.map_flatMap]
  refine List.flatMap_congr fun l _ => ?_
  rw [List.map_flatMap]
  exact List.flatMap_congr fun s _ => candidatesFrom_scale f raw groups s

/-- Whether and why an edge is rejected does not depend on weights. -/
theorem rejection?_scale (f : Edge → Nat) (g : Graph) (c : Candidate) :
    rejection? policy (g.scale f) (c.scale f) = rejection? policy g c := by
  rw [rejection?, rejection?, Graph.path?_congr (Graph.nodes_scale f g) (Graph.edges_scale f g)]
  rfl

theorem offer_scale (f : Edge → Nat) (a : Admission) (c : Candidate) :
    offer policy (a.scale f) (c.scale f) = (offer policy a c).scale f := by
  have hscale : rejection? policy (a.scale f).admitted (c.scale f) =
      rejection? policy a.admitted c := rejection?_scale f a.admitted c
  cases hr : rejection? policy a.admitted c with
  | some r =>
    rw [offer_of_some hr, offer_of_some (hscale.trans hr), scale, scale, List.map_append]
    rfl
  | none =>
    rw [offer_of_none hr, offer_of_none (hscale.trans hr), scale, scale, Graph.scale_addEdge]
    rfl

theorem offers_scale (f : Edge → Nat) (a : Admission) (cs : List Candidate) :
    offers policy (a.scale f) (cs.map (.scale f)) = (offers policy a cs).scale f := by
  rw [offers, offers, List.foldl_map]
  exact List.foldl_hom (scale f) fun a c => offer_scale f a c

/-- Admission carries the factors of edges along. -/
theorem ofGraph_scale (f : Edge → Nat) (raw : Graph) (groups : List Group) (policy : LayerPolicy) :
    ofGraph (raw.scale f) groups policy = (ofGraph raw groups policy).scale f := by
  rw [ofGraph_eq_offers, ofGraph_eq_offers, candidates_scale, ← offers_scale, scale_start]

/-! ## Weights of what is decided -/

/-- If all offered edges weigh something, so do the admitted ones. -/
theorem weight_pos_offers {cs : List Candidate} (hc : ∀ c ∈ cs, 0 < c.weight)
    (ha : ∀ e w, a.admitted.weight? e = some w → 0 < w) :
    ∀ e w, (offers policy a cs).admitted.weight? e = some w → 0 < w := by
  induction cs generalizing a with
  | nil => exact ha
  | cons c cs ih =>
    refine ih (fun d hd => hc d (List.mem_cons_of_mem _ hd)) fun e w hw => ?_
    cases hr : rejection? policy a.admitted c with
    | some r =>
      rw [offer_of_some hr] at hw
      exact ha e w hw
    | none =>
      rw [offer_of_none hr] at hw
      by_cases hl : c.edge.source = c.edge.target
      · rw [Graph.addEdge_loop _ _ hl] at hw
        exact ha e w hw
      · rw [Graph.weight?_addEdge _ hl] at hw
        split at hw
        · have hpos := hc c (List.mem_cons_self ..)
          have hw := Option.some_inj.1 hw
          omega
        · exact ha e w hw

/-- A rejected edge has its raw weight. -/
theorem weight?_of_mem_rejected {raw : Graph} {r : RejectedEdge}
    (hr : r ∈ (ofGraph raw groups policy).rejected) : raw.weight? r.edge = some r.weight := by
  obtain ⟨pre, c, post, hcs, hw, -⟩ :=
    (exists_split_of_mem_rejected hr).resolve_left List.not_mem_nil
  have hc : c ∈ candidates raw groups policy := by simp [hcs]
  obtain ⟨s, -, t, -, -, -, -, hraw⟩ := exists_of_mem_candidates hc
  have he : r.edge = c.edge := congrArg WeightedEdge.edge hw
  have hweight : r.weight = c.weight := congrArg WeightedEdge.weight hw
  rw [he, hweight, hraw]

/-- At every moment the admitted edges have the weights of the raw graph. -/
theorem weight?_of_offers_start {raw : Graph} (hd : (groups.map Group.id).Nodup)
    (hp : policy.admissionOrder.Nodup) {cs : List Candidate}
    (hcs : cs <+: candidates raw groups policy) {e : Edge} {w : Nat}
    (hw : (offers policy (start groups) cs).admitted.weight? e = some w) :
    raw.weight? e = some w := by
  obtain ⟨post, hpost⟩ := hcs
  have ho : Orderly cs := (hpost ▸ orderly_candidates hd hp : Orderly (cs ++ post)).left
  have hperm : (offers policy (start groups) cs).decided.Perm
      ((start groups).decided ++ cs.map Candidate.weighted) :=
    perm_offers ho fun c _ => Graph.weight?_ofNodes _ _
  have hnil : (start groups).decided = [] := by
    simp [decided, start, Graph.weightedEdges, Graph.weights_ofNodes, OrdMap.empty]
  rw [hnil, List.nil_append] at hperm
  have hmem : ⟨e, w⟩ ∈ cs.map Candidate.weighted :=
    hperm.mem_iff.1 (List.mem_append_left _ (Graph.mem_weightedEdges.2 hw))
  obtain ⟨c, hc, hcw⟩ := List.mem_map.1 hmem
  have hcand : c ∈ candidates raw groups policy := hpost ▸ List.mem_append_left post hc
  obtain ⟨-, -, -, -, -, -, -, hraw⟩ := exists_of_mem_candidates hcand
  cases hcw
  exact hraw

theorem fits_offers_start {raw : Graph} (hraw : raw.Fits) (hd : (groups.map Group.id).Nodup)
    (hp : policy.admissionOrder.Nodup) {cs : List Candidate}
    (hcs : cs <+: candidates raw groups policy) : (offers policy (start groups) cs).admitted.Fits := by
  intro e
  cases h : (offers policy (start groups) cs).admitted.weight? e with
  | none => decide
  | some w =>
    have hweight := hraw e
    rwa [weight?_of_offers_start hd hp hcs h] at hweight

/-! ## Graphs that differ in weights only -/

/-- The same edges are admitted, and the same are rejected in the same order and for
the same reasons. -/
structure DecidesAlike (a b : Admission) : Prop where
  nodes : a.admitted.nodes = b.admitted.nodes
  edges : a.admitted.edges = b.admitted.edges
  rejected : a.rejected.map RejectedEdge.unweighted = b.rejected.map RejectedEdge.unweighted

theorem DecidesAlike.symm {a b : Admission} (h : a.DecidesAlike b) : b.DecidesAlike a :=
  ⟨h.nodes.symm, h.edges.symm, h.rejected.symm⟩

theorem DecidesAlike.trans {a b c : Admission} (h : a.DecidesAlike b) (h' : b.DecidesAlike c) :
    a.DecidesAlike c :=
  ⟨h.nodes.trans h'.nodes, h.edges.trans h'.edges, h.rejected.trans h'.rejected⟩

theorem decidesAlike_scale (f : Edge → Nat) (a : Admission) : (a.scale f).DecidesAlike a where
  nodes := rfl
  edges := Graph.edges_scale f a.admitted
  rejected := List.map_map

theorem decidesAlike_wrap (a : Admission) : a.wrap.DecidesAlike a where
  nodes := rfl
  edges := Graph.edges_wrap a.admitted
  rejected := rfl

/-- The admission of a graph is that of the graph with weight 1 on every edge, scaled
by the weights. -/
theorem ofGraph_eq_scale (raw : Graph) (groups : List Group) (policy : LayerPolicy) :
    ofGraph raw groups policy = (ofGraph raw.unweighted groups policy).scale raw.weightOf := by
  rw [← ofGraph_scale, Graph.scale_unweighted]

/-- Two graphs with the same nodes and edges have the same edges admitted and rejected. -/
theorem decidesAlike_of_edges {raw other : Graph} (hn : other.nodes = raw.nodes)
    (he : other.edges = raw.edges) (groups : List Group) (policy : LayerPolicy) :
    (ofGraph other groups policy).DecidesAlike (ofGraph raw groups policy) := by
  have hother := decidesAlike_scale other.weightOf (ofGraph other.unweighted groups policy)
  have hraw := decidesAlike_scale raw.weightOf (ofGraph raw.unweighted groups policy)
  rw [← ofGraph_eq_scale, Graph.unweighted_congr hn he] at hother
  rw [← ofGraph_eq_scale] at hraw
  exact hother.trans hraw.symm

/-- How often an edge is admitted: more than once only if a group or a layer is listed
more than once. -/
def timesAdmitted (raw : Graph) (groups : List Group) (policy : LayerPolicy) (e : Edge) : Nat :=
  (ofGraph raw.unweighted groups policy).admitted.weightOf e

theorem timesAdmitted_congr {raw other : Graph} (hn : other.nodes = raw.nodes)
    (he : other.edges = raw.edges) (groups : List Group) (policy : LayerPolicy) :
    timesAdmitted other groups policy = timesAdmitted raw groups policy := by
  funext e
  rw [timesAdmitted, timesAdmitted, Graph.unweighted_congr hn he]

/-- An admitted edge weighs as many times its weight as it is admitted. -/
theorem weightOf_admitted (raw : Graph) (groups : List Group) (policy : LayerPolicy) (e : Edge) :
    (ofGraph raw groups policy).admitted.weightOf e =
      timesAdmitted raw groups policy e * raw.weightOf e := by
  rw [ofGraph_eq_scale, scale, Graph.weightOf_scale, timesAdmitted]

theorem timesAdmitted_pos {raw : Graph} {e : Edge}
    (he : e ∈ (ofGraph raw groups policy).admitted.edges) :
    0 < timesAdmitted raw groups policy e := by
  rw [ofGraph_eq_scale, scale, Graph.edges_scale, Graph.mem_edges] at he
  obtain ⟨n, hn⟩ := Option.isSome_iff_exists.1 he
  rw [timesAdmitted, Graph.weightOf, hn, Option.getD_some]
  refine weight_pos_offers (fun c hc => ?_) (fun e w hw => ?_) e n hn
  · obtain ⟨s, -, t, -, -, -, -, hw⟩ := exists_of_mem_candidates hc
    rw [Graph.weight?_unweighted, Option.map_eq_some_iff] at hw
    obtain ⟨v, -, hw⟩ := hw
    omega
  · rw [start, Graph.weight?_ofNodes] at hw
    cases hw

/-- The admitted weights fit just if no edge is admitted too often for its weight. -/
theorem fits_admitted_iff (raw : Graph) (groups : List Group) (policy : LayerPolicy) :
    (ofGraph raw groups policy).admitted.Fits ↔
      ∀ e, timesAdmitted raw groups policy e * raw.weightOf e < UInt32.size :=
  forall_congr' fun e => by rw [← weightOf_admitted, Graph.weightOf]

/-- Where no group and no layer is listed twice, no edge is admitted twice. -/
theorem timesAdmitted_le_one {raw : Graph} (hd : (groups.map Group.id).Nodup)
    (hp : policy.admissionOrder.Nodup) (e : Edge) : timesAdmitted raw groups policy e ≤ 1 := by
  rw [timesAdmitted, Graph.weightOf]
  cases h : (ofGraph raw.unweighted groups policy).admitted.weight? e with
  | none => exact Nat.zero_le 1
  | some n =>
    rw [ofGraph_eq_offers] at h
    have hn := weight?_of_offers_start hd hp (List.prefix_refl _) h
    rw [Graph.weight?_unweighted, Option.map_eq_some_iff] at hn
    obtain ⟨-, -, rfl⟩ := hn
    exact Nat.le_refl 1

end Admission

/-! ## Tables that differ in weights only -/

namespace TableAdmission

variable {T : GraphTable} {raw other : GroupGraph T} {groups : List Group} {policy : LayerPolicy}
  {b : TableAdmission T}

/-- The weights are those of the graph: an admitted edge has its own as many times as
the edge was admitted, modulo 2³², and a rejected edge has its own. -/
structure CarriesWeights (a : TableAdmission T) (raw : GroupGraph T) (times : Edge → Nat) :
    Prop where
  admitted : ∀ e ∈ a.admitted.edges, 0 < times e ∧ ∃ w, raw.weight? e = some w ∧
    a.admitted.weight? e = some (.ofNat (times e * w.toNat))
  rejected : ∀ r ∈ a.rejected, ∃ w, raw.weight? r.edge = some w ∧ r.weight = w.toNat

/-- Where weights wrap around, they are the exact ones modulo 2³². -/
theorem plain_ofGraphWrapped (raw : GroupGraph T) (groups : List Group) (policy : LayerPolicy) :
    (ofGraphWrapped raw groups policy).plain =
      (Admission.ofGraph raw.graph groups policy).wrap := by
  have hstart : (start groups : TableAdmission T).plain = (Admission.start groups).wrap := by
    rw [plain_start, Admission.start, Admission.wrap, Graph.wrap_ofNodes]
  rw [ofGraphWrapped, plain_offersWrapped hstart, map_plain_candidates,
    Admission.ofGraph_eq_offers]

/-- There is an admission just if the exact weights fit, and then none wraps around. -/
theorem ofGraph_eq_some_iff : ofGraph raw groups policy = some b ↔
    b = ofGraphWrapped raw groups policy ∧
      (Admission.ofGraph raw.graph groups policy).admitted.Fits := by
  rw [ofGraph, offers_eq_some_iff, plain_start, map_plain_candidates, Admission.ofGraph_eq_offers]
  rfl

theorem carriesWeights_ofGraphWrapped (raw : GroupGraph T) (groups : List Group)
    (policy : LayerPolicy) : (ofGraphWrapped raw groups policy).CarriesWeights raw
      (Admission.timesAdmitted raw.graph groups policy) where
  admitted e he := by
    have hgraph : (ofGraphWrapped raw groups policy).admitted.graph =
        (Admission.ofGraph raw.graph groups policy).admitted.wrap :=
      congrArg Admission.admitted (plain_ofGraphWrapped raw groups policy)
    have hmem : e ∈ (Admission.ofGraph raw.graph groups policy).admitted.edges := by
      rwa [← GroupGraph.edges_graph, hgraph, Graph.edges_wrap] at he
    obtain ⟨w, hw⟩ : ∃ w, raw.weight? e = some w := by
      obtain ⟨c, hc, hce, -⟩ := Admission.exists_of_adj_ofGraph (x := e.source) (y := e.target) hmem
      have hadj := Admission.adj_of_mem_candidates hc
      rw [hce] at hadj
      exact Option.isSome_iff_exists.1 (GroupGraph.mem_edges.1 (GroupGraph.edges_graph raw ▸ hadj))
    refine ⟨Admission.timesAdmitted_pos hmem, w, hw, GroupGraph.weight?_eq_some_iff.2 ⟨he, ?_⟩⟩
    rw [hgraph, ← Graph.weightOf, Graph.weightOf_wrap, Admission.weightOf_admitted,
      raw.weightOf_graph, hw]
    rfl
  rejected r hr := by
    have hr : r ∈ (Admission.ofGraph raw.graph groups policy).rejected := by
      have hrejected := congrArg Admission.rejected (plain_ofGraphWrapped raw groups policy)
      exact hrejected ▸ hr
    have hw := Admission.weight?_of_mem_rejected hr
    rw [GroupGraph.weight?_graph, Option.map_eq_some_iff] at hw
    obtain ⟨w, hw, hweight⟩ := hw
    exact ⟨w, hw, hweight.symm⟩

/-- Weights never decide what is admitted. Two graphs with the same nodes and edges have the same
edges admitted and the same rejected in the same order, for the same reasons; each carries a
weight that depends on its own only. That is so whether weights wrap around or have to fit, and
they fit unless an edge is admitted too often for its weight. Where no group and no layer is
listed twice, none is admitted more than once. -/
theorem weights_never_decide (T : GraphTable) (raw : GroupGraph T) (groups : List Group)
    (policy : LayerPolicy) : ∃ times : Edge → Nat,
      (∀ other : GroupGraph T, other.nodes = raw.nodes → other.edges = raw.edges →
        (ofGraphWrapped other groups policy).plain.DecidesAlike
          (ofGraphWrapped raw groups policy).plain ∧
        (ofGraphWrapped other groups policy).CarriesWeights other times ∧
        ∀ b, ofGraph other groups policy = some b ↔ b = ofGraphWrapped other groups policy ∧
          ∀ e w, other.weight? e = some w → times e * w.toNat < UInt32.size) ∧
      ((groups.map Group.id).Nodup → policy.admissionOrder.Nodup → ∀ e, times e ≤ 1) := by
  refine ⟨Admission.timesAdmitted raw.graph groups policy, fun other hn he => ?_,
    fun hd hp => Admission.timesAdmitted_le_one hd hp⟩
  have hnodes : other.graph.nodes = raw.graph.nodes :=
    OrdSet.ext_mem fun x => by
      rw [GroupGraph.mem_nodes_graph, GroupGraph.mem_nodes_graph, ← GroupGraph.mem_nodes,
        ← GroupGraph.mem_nodes, hn]
  have hedges : other.graph.edges = raw.graph.edges := by
    rw [GroupGraph.edges_graph, GroupGraph.edges_graph, he]
  rw [← Admission.timesAdmitted_congr hnodes hedges]
  refine ⟨?_, carriesWeights_ofGraphWrapped other groups policy, fun b => ?_⟩
  · rw [plain_ofGraphWrapped, plain_ofGraphWrapped]
    exact (Admission.decidesAlike_wrap _).trans
      ((Admission.decidesAlike_of_edges hnodes hedges groups policy).trans
        (Admission.decidesAlike_wrap _).symm)
  · rw [ofGraph_eq_some_iff, Admission.fits_admitted_iff]
    refine and_congr_right fun _ => forall_congr' fun e => ?_
    rw [other.weightOf_graph]
    cases other.weight? e with
    | none => simp
    | some w => simp

/-- Two edges that close a cycle. -/
def twoWay (v w : UInt32) : GroupGraph .byArrival :=
  ((GroupGraph.ofNodes [0, 1]).addWrapped ⟨0, 1⟩ v).addWrapped ⟨1, 0⟩ w

theorem graph_twoWay (v w : UInt32) : (twoWay v w).graph =
    (((Graph.ofNodes [0, 1]).addEdge ⟨0, 1⟩ v.toNat).addEdge ⟨1, 0⟩ w.toNat).wrap :=
  GroupGraph.graph_addWrapped (GroupGraph.graph_addWrapped
    ((GroupGraph.graph_ofNodes [0, 1]).trans (Graph.wrap_ofNodes [0, 1]).symm))

theorem nodes_twoWay (v w : UInt32) : (twoWay v w).nodes = [0, 1] := by
  change (twoWay v w).graph.nodes.toList = [0, 1]
  rw [graph_twoWay]
  rfl

theorem edges_twoWay (v w : UInt32) : (twoWay v w).edges = .ofList [⟨0, 1⟩, ⟨1, 0⟩] := by
  rw [← GroupGraph.edges_graph, graph_twoWay]
  rfl

/-- If the first of two utilities is listed twice, its edge is admitted twice and weighs twice as
much, which may take more than 32 bits; the edge back keeps its weight. If each is listed once,
all weights fit. -/
theorem weights_never_decide_twoWay :
    let twice := [Admission.utility 0, Admission.utility 1, Admission.utility 0]
    let once := [Admission.utility 0, Admission.utility 1]
    let light := ofGraphWrapped (twoWay 1 5) twice .standard
    let heavy := ofGraphWrapped (twoWay 3000000000 5) twice .standard
    heavy.plain.DecidesAlike light.plain ∧
      light.rejected = [⟨⟨1, 0⟩, 5, .cycleAvoidance [0, 1]⟩] ∧
      light.admitted.weight? ⟨0, 1⟩ = some 2 ∧
      heavy.admitted.weight? ⟨0, 1⟩ = some 1705032704 ∧
      ofGraph (twoWay 3000000000 5) twice .standard = none ∧
      (once.map Group.id).Nodup ∧ LayerPolicy.standard.admissionOrder.Nodup ∧
      ∃ b, ofGraph (twoWay 3000000000 5) once .standard = some b := by
  intro twice once light heavy
  have hplain : light.plain = _ := plain_ofGraphWrapped (twoWay 1 5) twice .standard
  rw [graph_twoWay] at hplain
  have hrejected : light.rejected = _ := congrArg Admission.rejected hplain
  have hadmitted : light.admitted.graph = _ := congrArg Admission.admitted hplain
  have hmem : ⟨0, 1⟩ ∈ light.admitted.edges := by
    rw [← GroupGraph.edges_graph, hadmitted]
    decide
  have htwo : light.admitted.weight? ⟨0, 1⟩ = some 2 := by
    refine GroupGraph.weight?_eq_some_iff.2 ⟨hmem, ?_⟩
    rw [hadmitted]
    decide
  obtain ⟨times, h, -⟩ := weights_never_decide .byArrival (twoWay 1 5) twice .standard
  obtain ⟨-, hlight, -⟩ := h (twoWay 1 5) rfl rfl
  obtain ⟨halike, hheavy, hiff⟩ := h (twoWay 3000000000 5)
    ((nodes_twoWay ..).trans (nodes_twoWay ..).symm)
    ((edges_twoWay ..).trans (edges_twoWay ..).symm)
  -- The lighter weight tells how often the edge is admitted, up to multiples of 2³².
  have htimes : times ⟨0, 1⟩ * 1 % 4294967296 = 2 := by
    obtain ⟨-, w, hw, hweight⟩ := hlight.admitted ⟨0, 1⟩ hmem
    have hone : (twoWay 1 5).weight? ⟨0, 1⟩ = some 1 := rfl
    obtain rfl := Option.some.inj (hone.symm.trans hw)
    exact (congrArg UInt32.toNat (Option.some.inj (htwo.symm.trans hweight))).symm
  have hraw : (twoWay 3000000000 5).weight? ⟨0, 1⟩ = some 3000000000 := rfl
  have hvalue : (3000000000 : UInt32).toNat = 3000000000 := rfl
  have hlarge (n : Nat) (h : n * 1 % 4294967296 = 2) :
      n * 3000000000 % 4294967296 = 1705032704 ∧ 4294967296 ≤ n * 3000000000 := by omega
  refine ⟨halike, ?_, htwo, ?_, ?_, by decide, by decide, ?_⟩
  · rw [hrejected]
    decide
  · have hmem : ⟨0, 1⟩ ∈ heavy.admitted.edges := by
      rw [← GroupGraph.edges_graph] at hmem ⊢
      exact halike.edges ▸ hmem
    obtain ⟨-, w, hw, hweight⟩ := hheavy.admitted ⟨0, 1⟩ hmem
    obtain rfl := Option.some.inj (hraw.symm.trans hw)
    rw [hweight, Option.some_inj, ← UInt32.toNat_inj, UInt32.toNat_ofNat', hvalue]
    exact (hlarge _ htimes).1
  · refine Option.eq_none_iff_forall_ne_some.2 fun b hb => ?_
    have hlt := ((hiff b).1 hb).2 _ _ hraw
    rw [hvalue] at hlt
    exact absurd hlt (Nat.not_lt.2 (hlarge _ htimes).2)
  · obtain ⟨times, h, hunique⟩ :=
      weights_never_decide .byArrival (twoWay 3000000000 5) once .standard
    refine ⟨_, ((h _ rfl rfl).2.2 _).2 ⟨rfl, fun e w _ => ?_⟩⟩
    have hle := hunique (by decide) (by decide) e
    calc times e * w.toNat ≤ 1 * w.toNat := Nat.mul_le_mul_right _ hle
      _ = w.toNat := Nat.one_mul _
      _ < UInt32.size := w.toNat_lt

end TableAdmission

end Layering
