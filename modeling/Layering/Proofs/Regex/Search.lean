import Layering.Proofs.Regex.Compile
import Mathlib.Data.Finset.Card

/-!
# Searches

A search tries every pair of an address and a place once at most. What it finds is a match
(`Regex.finds_of_search`), and if it finds nothing, no thread leads to a match: all pairs that the
threads come to have been tried (`Regex.Explored`), and nothing is found at any of them. So the
first match is found if there is one (`Regex.finds_of_findFrom`, `Regex.not_finds_of_findFrom`).
-/

namespace Layering.Regex

variable {text : Array Char} {q : Program} {t u : Thread} {ts : List Thread} {tried : Tried}
  {found : Found} {fuel n start place count : Nat} {s s' : Nat × Nat}

/-! ## Spots -/

/-- The address of a thread and its place. -/
def Thread.spot (t : Thread) : Nat × Nat := (t.address, t.place)

/-- The number of a spot among those that have been tried. -/
def key (q : Program) (s : Nat × Nat) : Nat := s.2 * q.size + s.1

/-- A spot of a program in a text. -/
structure InRange (q : Program) (text : Array Char) (s : Nat × Nat) : Prop where
  address : s.1 < q.size
  place : s.2 ≤ text.size

theorem InRange.key_lt (h : InRange q text s) : key q s < q.size * (text.size + 1) := by
  have hplace : s.2 * q.size ≤ text.size * q.size := Nat.mul_le_mul_right _ h.place
  have haddress := h.address
  rw [key, Nat.mul_comm q.size, Nat.succ_mul]
  omega

theorem InRange.eq_of_key_eq (h : InRange q text s) (h' : InRange q text s')
    (hkey : key q s = key q s') : s = s' := by
  have hpos := Nat.zero_lt_of_lt h.address
  have haddress : s.1 = s'.1 := by
    have hmod := congrArg (· % q.size) hkey
    simpa [key, Nat.mod_eq_of_lt h.address, Nat.mod_eq_of_lt h'.address] using hmod
  rw [key, key, haddress] at hkey
  exact Prod.ext haddress (Nat.eq_of_mul_eq_mul_right hpos (Nat.add_right_cancel hkey))

/-- The spots that follow an instruction at a place. -/
def Instruction.moves (text : Array Char) (place : Nat) : Instruction → List (Nat × Nat)
  | .accept => []
  | .take s next => if text[place]?.any s then [(next, place + 1)] else []
  | .check a next => if a.holds (charBefore text place) text[place]? then [(next, place)] else []
  | .fork first second => [(first, place), (second, place)]
  | .openGroup next => [(next, place)]
  | .closeGroup next => [(next, place)]

/-- The spots that follow a spot. -/
def moves (q : Program) (text : Array Char) (s : Nat × Nat) : List (Nat × Nat) :=
  (q[s.1]?.map (Instruction.moves text s.2)).getD []

/-- Where a thread goes on does not depend on the group. -/
theorem map_spot_of_step {next : List Thread} (h : t.step q text = .inr next) :
    next.map Thread.spot = moves q text t.spot := by
  rw [Thread.step] at h
  rw [moves, Thread.spot]
  cases hi : q[t.address]? with
  | none =>
    rw [hi] at h
    obtain rfl := Sum.inr.inj h
    rfl
  | some i =>
    rw [hi] at h
    rw [Option.map_some, Option.getD_some]
    cases i with
    | accept => cases h
    | take set next =>
      rw [Instruction.moves]
      cases hchar : text[t.place]? with
      | none =>
        simp only [hchar] at h
        obtain rfl := Sum.inr.inj h
        rfl
      | some x =>
        simp only [hchar] at h
        obtain rfl := Sum.inr.inj h
        by_cases hx : set x <;> simp [hx, Thread.spot]
    | check a next =>
      obtain rfl := Sum.inr.inj h
      rw [Instruction.moves]
      change List.map Thread.spot
        (if a.holds (charBefore text t.place) text[t.place]? then _ else []) = _
      split <;> rfl
    | fork first second =>
      obtain rfl := Sum.inr.inj h
      rfl
    | openGroup next =>
      obtain rfl := Sum.inr.inj h
      rfl
    | closeGroup next =>
      obtain rfl := Sum.inr.inj h
      rfl

/-- An instruction leads to its targets, and to the end of the text at most. -/
theorem target_of_mem_moves {i : Instruction} {place : Nat} (hplace : place ≤ text.size)
    (h : s ∈ i.moves text place) : s.1 ∈ i.targets ∧ s.2 ≤ text.size := by
  cases i with
  | accept => cases h
  | take set next =>
    simp only [Instruction.moves, List.mem_ite_nil_right, List.mem_singleton] at h
    obtain ⟨hany, rfl⟩ := h
    obtain ⟨x, hx, -⟩ := (Option.any_eq_true _ _).1 hany
    exact ⟨List.mem_singleton_self _, (Array.getElem?_eq_some_iff.1 hx).1⟩
  | check a next =>
    simp only [Instruction.moves, List.mem_ite_nil_right, List.mem_singleton] at h
    obtain ⟨-, rfl⟩ := h
    exact ⟨List.mem_singleton_self _, hplace⟩
  | fork first second =>
    simp only [Instruction.moves, List.mem_cons, List.not_mem_nil, or_false] at h
    rcases h with rfl | rfl
    · exact ⟨List.mem_cons_self, hplace⟩
    · exact ⟨List.mem_cons_of_mem _ (List.mem_singleton_self _), hplace⟩
  | openGroup next =>
    obtain rfl := List.mem_singleton.1 h
    exact ⟨List.mem_singleton_self _, hplace⟩
  | closeGroup next =>
    obtain rfl := List.mem_singleton.1 h
    exact ⟨List.mem_singleton_self _, hplace⟩

theorem inRange_of_mem_moves (hq : q.Closed) (hs : InRange q text s) (h : s' ∈ moves q text s) :
    InRange q text s' := by
  rw [moves] at h
  cases hi : q[s.1]? with
  | none =>
    rw [hi] at h
    cases h
  | some i =>
    rw [hi] at h
    obtain ⟨htarget, hplace⟩ := target_of_mem_moves hs.place h
    exact ⟨hq s.1 i hi s'.1 htarget, hplace⟩

/-! ## What is found -/

theorem Finds.of_next (h : Next q text t u) (hu : Finds q text u found) : Finds q text t found := by
  obtain ⟨n, v, hn, hv⟩ := hu
  exact ⟨n + 1, v, ⟨u, h, hn⟩, hv⟩

/-- What is found is a match of one of the threads. -/
theorem finds_of_search (h : (search q text fuel ts tried).1 = some found) :
    ∃ t ∈ ts, Finds q text t found := by
  induction fuel generalizing ts tried with
  | zero => cases h
  | succ fuel ih =>
    cases ts with
    | nil => cases h
    | cons t ts =>
      rw [search] at h
      split at h
      · obtain ⟨u, hu, hfinds⟩ := ih h
        exact ⟨u, List.mem_cons_of_mem t hu, hfinds⟩
      · split at h
        · next f hstep =>
          obtain rfl := Option.some.inj h
          exact ⟨t, List.mem_cons_self, 0, t, rfl, hstep⟩
        · next next hstep =>
          obtain ⟨u, hu, hfinds⟩ := ih h
          rcases List.mem_append.1 hu with hu | hu
          · exact ⟨t, List.mem_cons_self, .of_next ⟨next, hstep, hu⟩ hfinds⟩
          · exact ⟨u, List.mem_cons_of_mem t hu, hfinds⟩

/-! ## What is not found -/

/-- Of what has been tried, nothing is a match, and what follows it has been tried or waits. -/
def Explored (q : Program) (text : Array Char) (tried : Tried) (waiting : List (Nat × Nat)) :
    Prop :=
  ∀ s, InRange q text s → tried.contains (key q s) → q[s.1]? ≠ some .accept ∧
    ∀ s' ∈ moves q text s, tried.contains (key q s') ∨ s' ∈ waiting

/-- The number of spots that have not been tried. -/
def untried (q : Program) (text : Array Char) (tried : Tried) : Nat :=
  ((Finset.range (q.size * (text.size + 1))).filter fun k => !tried.contains k).card

theorem untried_insert (hs : InRange q text s) (h : ¬ tried.contains (key q s)) :
    untried q text (tried.insert (key q s)) + 1 = untried q text tried := by
  have herase : (Finset.range (q.size * (text.size + 1))).filter
        (fun k => !(tried.insert (key q s)).contains k) =
      ((Finset.range (q.size * (text.size + 1))).filter
        fun k => !tried.contains k).erase (key q s) := by
    ext k
    simp only [Finset.mem_filter, Finset.mem_erase, Std.HashSet.contains_insert, Bool.not_eq_true',
      Bool.or_eq_false_iff, beq_eq_false_iff_ne]
    tauto
  have hmem : key q s ∈ (Finset.range (q.size * (text.size + 1))).filter
      fun k => !tried.contains k := by
    simpa [hs.key_lt] using h
  rw [untried, herase, Finset.card_erase_add_one hmem, untried]

theorem untried_le (q : Program) (text : Array Char) (tried : Tried) :
    untried q text tried ≤ q.size * (text.size + 1) :=
  (Finset.card_filter_le _ _).trans (Finset.card_range _).le

theorem length_moves_le (q : Program) (text : Array Char) (s : Nat × Nat) :
    (moves q text s).length ≤ 2 := by
  rw [moves]
  cases q[s.1]? with
  | none => exact Nat.zero_le _
  | some i =>
    rw [Option.map_some, Option.getD_some]
    cases i with
    | take set next => rw [Instruction.moves]; split <;> simp
    | check a next => rw [Instruction.moves]; split <;> simp
    | _ => simp [Instruction.moves]

/-- The first waiting spot has been tried. -/
theorem Explored.drop {waiting : List (Nat × Nat)} (h : Explored q text tried (s :: waiting))
    (hs : tried.contains (key q s)) : Explored q text tried waiting := by
  intro x hx htried
  obtain ⟨haccept, hmoves⟩ := h x hx htried
  refine ⟨haccept, fun y hy => ?_⟩
  rcases hmoves y hy with hy | hy
  · exact .inl hy
  · rcases List.mem_cons.1 hy with rfl | hy
    · exact .inl hs
    · exact .inr hy

/-- The first waiting spot is tried, and those that follow it wait instead. -/
theorem Explored.insert {waiting : List (Nat × Nat)} (h : Explored q text tried (s :: waiting))
    (hs : InRange q text s) (haccept : q[s.1]? ≠ some .accept) :
    Explored q text (tried.insert (key q s)) (moves q text s ++ waiting) := by
  intro x hx htried
  rw [Std.HashSet.contains_insert, Bool.or_eq_true, beq_iff_eq] at htried
  rcases htried with heq | htried
  · obtain rfl := hs.eq_of_key_eq hx heq
    exact ⟨haccept, fun y hy => .inr (List.mem_append_left _ hy)⟩
  · obtain ⟨hnot, hmoves⟩ := h x hx htried
    refine ⟨hnot, fun y hy => ?_⟩
    rw [Std.HashSet.contains_insert]
    rcases hmoves y hy with hy | hy
    · exact .inl (by rw [hy, Bool.or_true])
    · rcases List.mem_cons.1 hy with rfl | hy
      · exact .inl (by rw [beq_self_eq_true, Bool.true_or])
      · exact .inr (List.mem_append_right _ hy)

/-- What a search keeps: its threads are in range and wait, and the fuel lasts for them. -/
structure Searches (q : Program) (text : Array Char) (fuel : Nat) (ts : List Thread)
    (tried : Tried) : Prop where
  inRange : ∀ t ∈ ts, InRange q text t.spot
  explored : Explored q text tried (ts.map Thread.spot)
  lasts : 2 * untried q text tried + ts.length < fuel

/-- A thread is left out if its spot has been tried. -/
theorem Searches.skip (h : Searches q text (fuel + 1) (t :: ts) tried)
    (ht : tried.contains (key q t.spot)) : Searches q text fuel ts tried where
  inRange := (List.forall_mem_cons.1 h.inRange).2
  explored := h.explored.drop ht
  lasts := by
    have hlasts := h.lasts
    rw [List.length_cons] at hlasts
    omega

/-- A thread whose spot is new goes on. -/
theorem Searches.go (hq : q.Closed) (h : Searches q text (fuel + 1) (t :: ts) tried)
    (ht : ¬ tried.contains (key q t.spot)) {next : List Thread}
    (hstep : t.step q text = .inr next) :
    Searches q text fuel (next ++ ts) (tried.insert (key q t.spot)) := by
  have hspots := map_spot_of_step hstep
  obtain ⟨hspot, hts⟩ := List.forall_mem_cons.1 h.inRange
  have haccept : q[t.address]? ≠ some .accept := fun haccept => by
    cases hstep.symm.trans (step_eq_inl_iff.2 ⟨haccept, rfl⟩)
  have hexplored := h.explored.insert hspot haccept
  rw [← hspots, ← List.map_append] at hexplored
  refine ⟨fun u hu => ?_, hexplored, ?_⟩
  · rcases List.mem_append.1 hu with hu | hu
    · exact inRange_of_mem_moves hq hspot (hspots ▸ List.mem_map_of_mem hu)
    · exact hts u hu
  · have hlasts := h.lasts
    have hinsert := untried_insert hspot ht
    have hlength : next.length ≤ 2 := by
      rw [← List.length_map (f := Thread.spot), hspots]
      exact length_moves_le q text t.spot
    rw [List.length_cons] at hlasts
    rw [List.length_append]
    omega

/-- A search that finds nothing has tried its threads and all that follows them. -/
theorem explored_of_search (hq : q.Closed) (hsearches : Searches q text fuel ts tried)
    (h : (search q text fuel ts tried).1 = none) :
    Explored q text (search q text fuel ts tried).2 [] ∧
      (∀ k, tried.contains k → (search q text fuel ts tried).2.contains k) ∧
        ∀ t ∈ ts, (search q text fuel ts tried).2.contains (key q t.spot) := by
  induction fuel generalizing ts tried with
  | zero => exact absurd hsearches.lasts (Nat.not_lt_zero _)
  | succ fuel ih =>
    cases ts with
    | nil => exact ⟨hsearches.explored, fun _ => id, nofun⟩
    | cons t ts =>
      have hkey : t.place * q.size + t.address = key q t.spot := rfl
      rw [search] at h ⊢
      simp only [hkey] at h ⊢
      split at h
      · next htried =>
        obtain ⟨hexplored, hkeep, hall⟩ := ih (hsearches.skip htried) h
        simp only [htried, if_true]
        exact ⟨hexplored, hkeep, List.forall_mem_cons.2 ⟨hkeep _ htried, hall⟩⟩
      · next htried =>
        split at h
        · cases h
        · next next hstep =>
          obtain ⟨hexplored, hkeep, hall⟩ := ih (hsearches.go hq htried hstep) h
          simp only [Std.HashSet.contains_insert, Bool.or_eq_true, beq_iff_eq] at hkeep
          simp only [htried, if_false, Bool.false_eq_true]
          exact ⟨hexplored, fun k hk => hkeep k (.inr hk), List.forall_mem_cons.2
            ⟨hkeep _ (.inl rfl), fun u hu => hall u (List.mem_append_right next hu)⟩⟩

/-- Once all that follows has been tried, nothing is found from a spot that has been tried. -/
theorem Explored.not_finds (h : Explored q text tried []) (hq : q.Closed)
    (ht : InRange q text t.spot) (htried : tried.contains (key q t.spot)) :
    ¬ Finds q text t found := by
  rintro ⟨n, u, hn, hu⟩
  induction n generalizing t with
  | zero =>
    obtain rfl : u = t := hn
    exact (h _ ht htried).1 (step_eq_inl_iff.1 hu).1
  | succ n ih =>
    obtain ⟨v, ⟨next, hstep, hv⟩, hn⟩ := hn
    have hmem : v.spot ∈ moves q text t.spot :=
      map_spot_of_step hstep ▸ List.mem_map_of_mem hv
    have htried' := ((h _ ht htried).2 _ hmem).resolve_right List.not_mem_nil
    exact ih (inRange_of_mem_moves hq ht hmem) htried' hn

/-! ## The first match -/

/-- A thread at the start of a program. -/
def startAt (start place : Nat) : Thread := Cursor.at ⟨place, none, none⟩ start

theorem finds_of_findFrom {s : Nat}
    (h : findFrom q start text count place tried = some (s, found)) :
    place ≤ s ∧ Finds q text (startAt start s) found := by
  induction count generalizing place tried with
  | zero => cases h
  | succ count ih =>
    rw [findFrom] at h
    split at h
    · next f tried' hsearch =>
      obtain ⟨rfl, rfl⟩ := Prod.mk.inj (Option.some.inj h)
      obtain ⟨t, ht, hfinds⟩ := finds_of_search (congrArg Prod.fst hsearch)
      obtain rfl := List.mem_singleton.1 ht
      exact ⟨Nat.le_refl _, hfinds⟩
    · obtain ⟨hle, hfinds⟩ := ih h
      exact ⟨Nat.le_of_succ_le hle, hfinds⟩

/-- No match starts at a place that a search has passed. -/
theorem not_finds_of_findFrom (hq : q.Closed) (hstart : start < q.size)
    (hcount : place + count ≤ text.size + 1) (hex : Explored q text tried []) {s : Nat}
    (h : ∀ r ∈ findFrom q start text count place tried, s < r.1) (hs : place ≤ s)
    (hs' : s < place + count) : ¬ Finds q text (startAt start s) found := by
  induction count generalizing place tried with
  | zero => omega
  | succ count ih =>
    rw [findFrom] at h
    split at h
    · have hlt := h _ rfl
      omega
    · next tried' hsearch =>
      have hsearches : Searches q text (3 * q.size * (text.size + 1) + 3) [startAt start place]
          tried := by
        refine ⟨fun t ht => ?_, fun x hx hkey => ?_, ?_⟩
        · obtain rfl := List.mem_singleton.1 ht
          exact ⟨hstart, by simp only [Thread.spot, startAt, Cursor.place_at]; omega⟩
        · exact ⟨(hex x hx hkey).1, fun y hy =>
            .inl (((hex x hx hkey).2 y hy).resolve_right List.not_mem_nil)⟩
        · have hle := untried_le q text tried
          rw [List.length_singleton, Nat.mul_assoc]
          omega
      obtain ⟨hex', -, hall⟩ := explored_of_search hq hsearches (congrArg Prod.fst hsearch)
      have htried' : (search q text (3 * q.size * (text.size + 1) + 3) [startAt start place]
          tried).2 = tried' := congrArg Prod.snd hsearch
      rw [htried'] at hex' hall
      rcases Nat.eq_or_lt_of_le hs with rfl | hlt
      · exact hex'.not_finds hq (hsearches.inRange _ (List.mem_singleton_self _))
          (hall _ (List.mem_singleton_self _))
      · exact ih (by omega) hex' h hlt (by omega)

end Layering.Regex
