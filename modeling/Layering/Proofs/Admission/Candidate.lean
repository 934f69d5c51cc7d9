import Layering.Admission
import Layering.Proofs.Graph.Reach
import Layering.Proofs.Policy

/-!
# Candidates

The edges that are offered for admission: those of the raw graph between listed
groups. If the groups have distinct ids and the policy is valid, each is offered
once, ordered by the place of its source's layer, then that of its source, then
its target (`Admission.precedes_candidates`).
-/

namespace Layering.Admission

variable {raw : Graph} {groups : List Group} {policy : LayerPolicy} {c : Candidate} {s t : Group}
  {id : GroupId} {l : Layer}

/-- The place of a group's layer in the order of admission. -/
def layerPlace (groups : List Group) (policy : LayerPolicy) (id : GroupId) : Nat :=
  match layerOf? groups id with
  | some l => policy.effectiveOrder.idxOf l
  | none => policy.effectiveOrder.length

/-- The place of a group among the groups. -/
def groupPlace (groups : List Group) (id : GroupId) : Nat := (groups.map Group.id).idxOf id

/-- The order of offers: by the place of the source's layer, the place of the
source, and the target. -/
def Precedes (groups : List Group) (policy : LayerPolicy) (d e : Edge) : Prop :=
  layerPlace groups policy d.source < layerPlace groups policy e.source ∨
    (layerPlace groups policy d.source = layerPlace groups policy e.source ∧
      (groupPlace groups d.source < groupPlace groups e.source ∨
        (groupPlace groups d.source = groupPlace groups e.source ∧ d.target < e.target)))

instance (d e : Edge) : Decidable (Precedes groups policy d e) :=
  inferInstanceAs (Decidable (_ ∨ _))

theorem Precedes.irrefl (e : Edge) : ¬ Precedes groups policy e e := by
  rintro (h | ⟨-, h | ⟨-, h⟩⟩) <;> exact lt_irrefl _ h

theorem Precedes.asymm {d e : Edge} (h : Precedes groups policy d e) :
    ¬ Precedes groups policy e d := by
  rcases h with h | ⟨h, h' | ⟨h', ht⟩⟩ <;> rintro (k | ⟨k, k' | ⟨k', kt⟩⟩)
  case inr.inr.inr.inr => exact lt_asymm ht kt
  all_goals omega

/-! ## Layers of groups -/

theorem exists_of_layerOf? (h : layerOf? groups id = some l) :
    ∃ t ∈ groups, t.id = id ∧ t.layer = l := by
  obtain ⟨t, ht, rfl⟩ := Option.map_eq_some_iff.1 h
  refine ⟨t, List.mem_reverse.1 (List.mem_of_find?_eq_some ht), ?_, rfl⟩
  simpa using List.find?_some ht

theorem layerOf?_of_mem (hd : (groups.map Group.id).Nodup) (ht : t ∈ groups) :
    layerOf? groups t.id = some t.layer := by
  cases hf : layerOf? groups t.id with
  | none =>
    rw [layerOf?, Option.map_eq_none_iff, List.find?_eq_none] at hf
    have := hf t (List.mem_reverse.2 ht)
    simp at this
  | some l =>
    obtain ⟨u, hu, hid, rfl⟩ := exists_of_layerOf? hf
    rw [List.inj_on_of_nodup_map hd hu ht hid]

/-! ## What is offered -/

theorem mem_candidates :
    c ∈ candidates raw groups policy ↔ ∃ s ∈ groups, c ∈ candidatesFrom raw groups s := by
  simp only [candidates, List.mem_flatMap, List.mem_filter, decide_eq_true_eq]
  constructor
  · rintro ⟨l, -, s, ⟨hs, -⟩, hc⟩
    exact ⟨s, hs, hc⟩
  · rintro ⟨s, hs, hc⟩
    exact ⟨s.layer, policy.mem_effectiveOrder _, s, ⟨hs, rfl⟩, hc⟩

/-- A candidate is an edge of the raw graph between listed groups. -/
theorem exists_of_mem_candidates (hc : c ∈ candidates raw groups policy) :
    ∃ s ∈ groups, ∃ t ∈ groups, c.edge = ⟨s.id, t.id⟩ ∧ c.sourceLayer = s.layer ∧
      c.targetLayer = t.layer ∧ raw.weight? c.edge = some c.weight := by
  obtain ⟨s, hs, hc⟩ := mem_candidates.1 hc
  obtain ⟨x, hx, hc⟩ := List.mem_filterMap.1 hc
  obtain ⟨l, hl, rfl⟩ := Option.map_eq_some_iff.1 hc
  obtain ⟨t, ht, rfl, rfl⟩ := exists_of_layerOf? hl
  refine ⟨s, hs, t, ht, rfl, rfl, rfl, ?_⟩
  obtain ⟨w, hw⟩ := Graph.adj_iff_exists_weight.1 (Graph.mem_successors.1 hx)
  rw [hw, Option.getD_some]

theorem adj_of_mem_candidates (hc : c ∈ candidates raw groups policy) :
    raw.Adj c.edge.source c.edge.target := by
  obtain ⟨s, -, t, -, he, -, -, hw⟩ := exists_of_mem_candidates hc
  exact Graph.adj_iff_exists_weight.2 ⟨_, hw⟩

/-- Every edge of the raw graph between listed groups is a candidate. -/
theorem mem_candidates_of_weight? (hd : (groups.map Group.id).Nodup) (hs : s ∈ groups)
    (ht : t ∈ groups) {w : Nat} (hw : raw.weight? ⟨s.id, t.id⟩ = some w) :
    ⟨⟨s.id, t.id⟩, w, s.layer, t.layer⟩ ∈ candidates raw groups policy := by
  have hadj : raw.Adj s.id t.id := Graph.adj_iff_exists_weight.2 ⟨_, hw⟩
  refine mem_candidates.2 ⟨s, hs, List.mem_filterMap.2 ⟨t.id, Graph.mem_successors.2 hadj, ?_⟩⟩
  rw [layerOf?_of_mem hd ht, Option.map_some, hw, Option.getD_some]

theorem exists_candidate_of_adj (hd : (groups.map Group.id).Nodup) (hs : s ∈ groups) (ht : t ∈ groups)
    (hadj : raw.Adj s.id t.id) :
    ∃ w, ⟨⟨s.id, t.id⟩, w, s.layer, t.layer⟩ ∈ candidates raw groups policy := by
  obtain ⟨w, hw⟩ := Graph.adj_iff_exists_weight.1 hadj
  exact ⟨w, mem_candidates_of_weight? hd hs ht hw⟩

/-! ## In which order -/

theorem pairwise_idxOf_lt {α : Type} [DecidableEq α] {l : List α} (h : l.Nodup) :
    l.Pairwise fun a b => l.idxOf a < l.idxOf b := by
  refine List.pairwise_iff_getElem.2 fun i j hi hj hij => ?_
  rwa [h.idxOf_getElem, h.idxOf_getElem]

theorem source_of_mem_candidatesFrom (hc : c ∈ candidatesFrom raw groups s) :
    c.edge.source = s.id := by
  obtain ⟨x, -, hc⟩ := List.mem_filterMap.1 hc
  obtain ⟨l, -, rfl⟩ := Option.map_eq_some_iff.1 hc
  rfl

theorem layerPlace_of_mem (hd : (groups.map Group.id).Nodup) (hs : s ∈ groups) :
    layerPlace groups policy s.id = policy.effectiveOrder.idxOf s.layer := by
  rw [layerPlace, layerOf?_of_mem hd hs]

theorem target_lt_candidatesFrom (raw : Graph) (groups : List Group) (s : Group) :
    (candidatesFrom raw groups s).Pairwise fun c d => c.edge.target < d.edge.target := by
  refine List.pairwise_filterMap.2 ((raw.ascending_successors s.id).imp fun h c hc d hd => ?_)
  obtain ⟨_, -, rfl⟩ := Option.map_eq_some_iff.1 hc
  obtain ⟨_, -, rfl⟩ := Option.map_eq_some_iff.1 hd
  exact h

theorem pairwise_groupPlace_lt (hd : (groups.map Group.id).Nodup) :
    groups.Pairwise fun s t => groupPlace groups s.id < groupPlace groups t.id := by
  have hids := pairwise_idxOf_lt hd
  rwa [List.pairwise_map] at hids

/-- Within a layer, groups that are listed first have their edges offered first. -/
theorem precedes_of_layer_eq (policy : LayerPolicy) (hd : (groups.map Group.id).Nodup)
    (hs : s ∈ groups) (ht : t ∈ groups) (hl : s.layer = t.layer)
    (hlt : groupPlace groups s.id < groupPlace groups t.id)
    (x y : GroupId) : Precedes groups policy ⟨s.id, x⟩ ⟨t.id, y⟩ := by
  rw [Precedes, layerPlace_of_mem hd hs, layerPlace_of_mem hd ht, hl]
  exact .inr ⟨rfl, .inl hlt⟩

/-- The edges are offered in the order of `Precedes`. -/
theorem precedes_candidates (hd : (groups.map Group.id).Nodup) (hp : policy.admissionOrder.Nodup) :
    (candidates raw groups policy).Pairwise fun c d => Precedes groups policy c.edge d.edge := by
  refine List.pairwise_flatMap.2 ⟨fun l _ => List.pairwise_flatMap.2 ⟨fun s hs => ?_, ?_⟩, ?_⟩
  · refine (target_lt_candidatesFrom raw groups s).imp_of_mem fun hc hd h => ?_
    rw [Precedes, source_of_mem_candidatesFrom hc, source_of_mem_candidatesFrom hd]
    exact .inr ⟨rfl, .inr ⟨rfl, h⟩⟩
  · refine ((pairwise_groupPlace_lt hd).filter _).imp_of_mem fun {s t} hs ht hlt c hc d hd' => ?_
    obtain ⟨hs, hsl⟩ := List.mem_filter.1 hs
    obtain ⟨ht, htl⟩ := List.mem_filter.1 ht
    rw [decide_eq_true_eq] at hsl htl
    have hprecedes := precedes_of_layer_eq policy hd hs ht (hsl.trans htl.symm) hlt
      c.edge.target d.edge.target
    rwa [← source_of_mem_candidatesFrom hc, ← source_of_mem_candidatesFrom hd'] at hprecedes
  · refine (pairwise_idxOf_lt (LayerPolicy.nodup_effectiveOrder hp)).imp fun {l m} hlt c hc d hd' => ?_
    obtain ⟨s, hs, hc⟩ := List.mem_flatMap.1 hc
    obtain ⟨t, ht, hd'⟩ := List.mem_flatMap.1 hd'
    obtain ⟨hs, hsl⟩ := List.mem_filter.1 hs
    obtain ⟨ht, htl⟩ := List.mem_filter.1 ht
    rw [decide_eq_true_eq] at hsl htl
    rw [Precedes, source_of_mem_candidatesFrom hc, source_of_mem_candidatesFrom hd',
      layerPlace_of_mem hd hs, layerPlace_of_mem hd ht, hsl, htl]
    exact .inl hlt

/-- No edge is offered twice. -/
theorem nodup_edge_candidates (hd : (groups.map Group.id).Nodup)
    (hp : policy.admissionOrder.Nodup) : ((candidates raw groups policy).map Candidate.edge).Nodup :=
  List.pairwise_map.2 ((precedes_candidates hd hp).imp fun {c d} h (e : c.edge = d.edge) =>
    Precedes.irrefl d.edge (e ▸ h))

end Layering.Admission
