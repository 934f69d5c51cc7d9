import Layering.Admission.Table
import Layering.Proofs.Admission.Offer
import Layering.Proofs.Graph.Reweigh

/-!
# Building group graphs in tables

What is built in a table is the graph that is built with weights of any size, as long as the
weights fit: by a row of edges (`GroupGraph.exists_addEdges`) and by a row of offers
(`TableAdmission.exists_offers_of_fits`).

If weights wrap around, what is built has the exact weights modulo 2³²
(`GroupGraph.graph_addEdgesWrapped`, `TableAdmission.plain_offersWrapped`). Just where the exact
weights fit it is built without overflow, too (`GroupGraph.addEdges_eq_some_iff`,
`TableAdmission.offers_eq_some_iff`).
-/

namespace Layering

variable {T : GraphTable}

/-! ## Rows of edges -/

namespace GroupGraph

variable {g g' : GroupGraph T} {k : Graph} {es : List Edge}

theorem graph_ofNodes (ns : List GroupId) : (ofNodes ns : GroupGraph T).graph = .ofNodes ns := by
  have h : ∀ g : GroupGraph T, (ns.foldl addNode g).graph = ns.foldl Graph.addNode g.graph := by
    induction ns with
    | nil => exact fun _ => rfl
    | cons n ns ih =>
      intro g
      rw [List.foldl_cons, ih, graph_addNode, List.foldl_cons]
  exact (h empty).trans (by rw [graph_empty, Graph.ofNodes])

/-- Edges can be added if their weights fit in the end. -/
theorem exists_addEdges (h : (es.foldl (·.addEdge · 1) g.graph).Fits) :
    ∃ g', g.addEdges es = some g' ∧ g'.graph = es.foldl (·.addEdge · 1) g.graph := by
  have hcalls : (es.map (GraphCall.addEdge · 1)).foldl GraphCall.apply g.graph =
      es.foldl (·.addEdge · 1) g.graph := List.foldl_map
  have hadd : (es.map (GraphCall.addEdge · 1)).foldlM GraphCall.perform g = g.addEdges es :=
    List.foldlM_map ..
  obtain ⟨g', hg'⟩ := GraphCall.exists_replay_iff.2 (hcalls ▸ h)
  exact ⟨g', hadd ▸ hg', (GraphCall.graph_replay hg').trans hcalls⟩

theorem graph_addEdgesWrapped (h : g.graph = k.wrap) :
    (g.addEdgesWrapped es).graph = (es.foldl (·.addEdge · 1) k).wrap := by
  induction es generalizing g k with
  | nil => exact h
  | cons e es ih => exact ih (graph_addWrapped h)

theorem eq_addEdgesWrapped (h : g.addEdges es = some g') : g' = g.addEdgesWrapped es ∧
    g'.graph = es.foldl (·.addEdge · 1) g.graph := by
  induction es generalizing g with
  | nil =>
    cases h
    exact ⟨rfl, rfl⟩
  | cons e es ih =>
    obtain ⟨g₁, he, hes⟩ := Option.bind_eq_some_iff.1 h
    obtain ⟨⟨b, g₂⟩, hadd, rfl⟩ := Option.map_eq_some_iff.1 he
    obtain ⟨hwrapped, hgraph⟩ := ih hes
    rw [(addEdge_eq_some hadd).2] at hgraph
    rw [eq_addWrapped hadd] at hwrapped
    exact ⟨hwrapped, hgraph⟩

/-- Edges can be added just if their weights fit in the end, and then no weight wraps around. -/
theorem addEdges_eq_some_iff : g.addEdges es = some g' ↔
    g' = g.addEdgesWrapped es ∧ (es.foldl (·.addEdge · 1) g.graph).Fits := by
  constructor
  · intro h
    obtain ⟨hwrapped, hgraph⟩ := eq_addEdgesWrapped h
    exact ⟨hwrapped, hgraph ▸ g'.fits_graph⟩
  · rintro ⟨rfl, hfits⟩
    obtain ⟨g₁, hadd, -⟩ := exists_addEdges hfits
    rw [hadd, (eq_addEdgesWrapped hadd).1]

end GroupGraph

/-! ## Rows of offers -/

namespace Admission

variable {policy : LayerPolicy} {a : Admission} {cs : List Candidate}

/-- The admission with the weights that sums of 32 bits have. -/
def wrap (a : Admission) : Admission := ⟨a.admitted.wrap, a.rejected⟩

/-- Admitted weights that fit after offers did so before. -/
theorem fits_of_offers (h : (offers policy a cs).admitted.Fits) : a.admitted.Fits := by
  induction cs generalizing a with
  | nil => exact h
  | cons c cs ih =>
    have hc : (offer policy a c).admitted.Fits := ih h
    cases hr : rejection? policy a.admitted c with
    | some r =>
      rw [offer_of_some hr] at hc
      exact hc
    | none =>
      rw [offer_of_none hr] at hc
      exact hc.of_addEdge

end Admission

namespace TableAdmission

variable {policy : LayerPolicy} {groups : List Group} {a b : TableAdmission T} {c : Candidate}
  {cs : List Candidate}

/-- The candidate with a weight of any size. -/
def Candidate.plain (c : Candidate) : Admission.Candidate :=
  ⟨c.edge, c.weight.toNat, c.sourceLayer, c.targetLayer⟩

/-- The admission with the graph that is read from the table. -/
def plain (a : TableAdmission T) : Admission := ⟨a.admitted.graph, a.rejected⟩

theorem map_plain_candidatesFrom (raw : GroupGraph T) (groups : List Group) (s : Group) :
    (candidatesFrom raw groups s).map Candidate.plain =
      Admission.candidatesFrom raw.graph groups s := by
  rw [candidatesFrom, Admission.candidatesFrom, List.map_filterMap, GroupGraph.successors_graph]
  refine List.filterMap_congr fun t _ => ?_
  rw [Option.map_map, GroupGraph.weight?_graph]
  refine Option.map_congr fun l _ => ?_
  cases raw.weight? ⟨s.id, t⟩ <;> simp [Candidate.plain]

theorem map_plain_candidates (raw : GroupGraph T) (groups : List Group) (policy : LayerPolicy) :
    (candidates raw groups policy).map Candidate.plain =
      Admission.candidates raw.graph groups policy := by
  simp only [candidates, Admission.candidates, List.map_flatMap, map_plain_candidatesFrom]

theorem plain_start (groups : List Group) :
    (start groups : TableAdmission T).plain = Admission.start groups := by
  rw [plain, start, Admission.start, GroupGraph.graph_ofNodes]

/-- What one offer does if it has a result. -/
theorem eq_offerWrapped (h : offer policy a c = some b) : b = offerWrapped policy a c ∧
    b.plain = Admission.offer policy a.plain c.plain := by
  have hlegal : policy.isLegal c.plain.sourceLayer c.plain.targetLayer =
      policy.isLegal c.sourceLayer c.targetLayer := rfl
  have hpath : a.plain.admitted.path? c.plain.edge.target c.plain.edge.source =
      a.admitted.path? c.edge.target c.edge.source := rfl
  rw [offer] at h
  rw [offerWrapped, Admission.offer, hlegal, hpath]
  split at h
  · next hl =>
    rw [if_pos hl, if_pos hl]
    cases hp : a.admitted.path? c.edge.target c.edge.source with
    | some path =>
      rw [hp] at h
      cases h
      exact ⟨rfl, rfl⟩
    | none =>
      rw [hp] at h
      obtain ⟨⟨r, g⟩, hadd, rfl⟩ := Option.map_eq_some_iff.1 h
      refine ⟨by rw [GroupGraph.eq_addWrapped hadd], ?_⟩
      rw [plain, (GroupGraph.addEdge_eq_some hadd).2]
      rfl
  · next hl =>
    cases h
    rw [if_neg hl, if_neg hl]
    exact ⟨rfl, rfl⟩

/-- An offer has a result if the weights fit after it. -/
theorem exists_offer_of_fits (h : (Admission.offer policy a.plain c.plain).admitted.Fits) :
    ∃ b, offer policy a c = some b := by
  rw [offer]
  split
  · next hlegal =>
    cases hp : a.admitted.path? c.edge.target c.edge.source with
    | some path => exact ⟨_, rfl⟩
    | none =>
      have hnone : Admission.rejection? policy a.plain.admitted c.plain = none :=
        (if_pos hlegal).trans (Option.map_eq_none_iff.2 hp)
      rw [Admission.offer_of_none hnone] at h
      obtain ⟨g, hg⟩ := GraphCall.exists_perform (c := .addEdge c.edge c.weight) h
      obtain ⟨r, hadd, -⟩ := Option.map_eq_some_iff.1 hg
      exact ⟨_, by rw [hadd, Option.map_some]⟩
  · exact ⟨_, rfl⟩

/-! ## Offers whose weights wrap around -/

/-- The decision does not depend on weights, so neither on whether they wrap around. -/
theorem plain_offerWrapped {d : Admission} (h : a.plain = d.wrap) :
    (offerWrapped policy a c).plain = (Admission.offer policy d c.plain).wrap := by
  have hgraph : a.admitted.graph = d.admitted.wrap := congrArg Admission.admitted h
  have hrejected : a.rejected = d.rejected := congrArg Admission.rejected h
  have hlegal : policy.isLegal c.plain.sourceLayer c.plain.targetLayer =
      policy.isLegal c.sourceLayer c.targetLayer := rfl
  have hpath : a.admitted.path? c.edge.target c.edge.source =
      d.admitted.path? c.plain.edge.target c.plain.edge.source :=
    (congrArg (·.path? c.edge.target c.edge.source) hgraph).trans (Graph.path?_wrap ..)
  rw [offerWrapped, Admission.offer, hlegal, hpath]
  split
  · cases d.admitted.path? c.plain.edge.target c.plain.edge.source with
    | some path =>
      rw [plain, hgraph, hrejected]
      rfl
    | none =>
      rw [plain, GroupGraph.graph_addWrapped hgraph, hrejected]
      rfl
  · rw [plain, hgraph, hrejected]
    rfl

theorem plain_offersWrapped {d : Admission} (h : a.plain = d.wrap) :
    (offersWrapped policy a cs).plain =
      (Admission.offers policy d (cs.map Candidate.plain)).wrap := by
  induction cs generalizing a d with
  | nil => exact h
  | cons c cs ih => exact ih (plain_offerWrapped h)

theorem eq_offersWrapped (h : offers policy a cs = some b) : b = offersWrapped policy a cs ∧
    b.plain = Admission.offers policy a.plain (cs.map Candidate.plain) := by
  induction cs generalizing a with
  | nil =>
    cases h
    exact ⟨rfl, rfl⟩
  | cons c cs ih =>
    obtain ⟨a₁, hc, hcs⟩ := Option.bind_eq_some_iff.1 h
    obtain ⟨hwrapped, hplain⟩ := ih hcs
    rw [(eq_offerWrapped hc).2] at hplain
    rw [(eq_offerWrapped hc).1] at hwrapped
    exact ⟨hwrapped, hplain⟩

theorem exists_offers_of_fits
    (h : (Admission.offers policy a.plain (cs.map Candidate.plain)).admitted.Fits) :
    ∃ b, offers policy a cs = some b := by
  induction cs generalizing a with
  | nil => exact ⟨a, rfl⟩
  | cons c cs ih =>
    rw [List.map_cons, Admission.offers_cons] at h
    obtain ⟨a₁, hc⟩ := exists_offer_of_fits (Admission.fits_of_offers h)
    rw [← (eq_offerWrapped hc).2] at h
    obtain ⟨b, hcs⟩ := ih h
    exact ⟨b, Option.bind_eq_some_iff.2 ⟨a₁, hc, hcs⟩⟩

/-- Edges can be offered just if the weights of the admitted ones fit in the end, and then no
weight wraps around. -/
theorem offers_eq_some_iff : offers policy a cs = some b ↔ b = offersWrapped policy a cs ∧
    (Admission.offers policy a.plain (cs.map Candidate.plain)).admitted.Fits := by
  constructor
  · intro h
    obtain ⟨hwrapped, hplain⟩ := eq_offersWrapped h
    exact ⟨hwrapped, hplain ▸ b.admitted.fits_graph⟩
  · rintro ⟨rfl, hfits⟩
    obtain ⟨b, hoffers⟩ := exists_offers_of_fits hfits
    rw [hoffers, (eq_offersWrapped hoffers).1]

end TableAdmission

end Layering
