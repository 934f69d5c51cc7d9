import Layering.Scan.Walk
import Mathlib.Data.List.Nodup
import Mathlib.Data.List.TakeWhile

/-!
# Files at their paths

A tree that is made path by path is well named (`WellNamed.insert`, `WellNamed.makeDir`): in
each of its directories a name stands once. A walk that honours no ignore files finds the
files that no entry called `.git` leads to (`Place.mem_files`), each of them once
(`Place.nodup_path_files`).
-/

namespace Layering.Files

variable {l es : Listing} {e : Entry} {name : Name} {path : List Name} {content : List UInt8}
  {w : Walk} {f : FoundFile}

/-! ## Names -/

/-- A name is split at its last dot, unless nothing stands before it. -/
theorem extension?_eq_some_iff {ext : List UInt8} : extension? name = some ext ↔
    ∃ stem, stem ≠ [] ∧ name = stem ++ 0x2E :: ext ∧ 0x2E ∉ ext := by
  constructor
  · intro h
    unfold extension? at h
    extract_lets back at h
    have hback : ∀ b ∈ back, b ≠ 0x2E := fun b hb => by
      simpa using List.mem_takeWhile_imp hb
    have hsplit : back ++ name.reverse.dropWhile (· != 0x2E) = name.reverse :=
      List.takeWhile_append_dropWhile
    rw [← hsplit, List.drop_left] at h
    split at h
    · next d b rest hrest =>
      obtain rfl := Option.some.inj h
      have hd : d = 0x2E := by
        have hne : name.reverse.dropWhile (· != 0x2E) ≠ [] := by simp [hrest]
        have hhead := List.head_dropWhile_not _ hne
        simpa [hrest] using hhead
      refine ⟨(b :: rest).reverse, by simp, ?_, fun hmem => hback _ (List.mem_reverse.1 hmem) rfl⟩
      rw [← List.reverse_reverse name, ← hsplit, hrest, hd]
      simp
    · cases h
  · rintro ⟨stem, hstem, rfl, hext⟩
    obtain ⟨b, rest, hb⟩ := List.exists_cons_of_ne_nil (mt List.reverse_eq_nil_iff.1 hstem)
    have hrev : (stem ++ 0x2E :: ext).reverse = ext.reverse ++ 0x2E :: b :: rest := by
      simp [hb]
    have hback : (ext.reverse ++ 0x2E :: b :: rest).takeWhile (· != 0x2E) = ext.reverse := by
      have hall : ∀ b ∈ ext.reverse, (b != 0x2E) = true := fun b hb => by
        rw [bne_iff_ne]
        rintro rfl
        exact hext (List.mem_reverse.1 hb)
      rw [List.takeWhile_append_of_pos hall, List.takeWhile_cons_of_neg (by simp), List.append_nil]
    simp only [extension?, hrev, hback, List.drop_left, List.reverse_reverse]

/-! ## Trees -/

/-- The file at a path of names. Links are no files and lead to none. -/
inductive FileAt : Listing → List Name → List UInt8 → Prop
  | file {l : Listing} {name : Name} {content : List UInt8} (h : (name, .file content) ∈ l) :
    FileAt l [name] content
  | dir {l es : Listing} {name : Name} {path : List Name} {content : List UInt8}
    (h : (name, .dir es) ∈ l) (hfile : FileAt es path content) : FileAt l (name :: path) content

/-- The names in each directory of a tree are distinct, and slashes stand in none. -/
inductive WellNamed : Listing → Prop
  | intro {l : Listing} (nodup : (l.map Prod.fst).Nodup) (slash : ∀ q ∈ l, 0x2F ∉ q.1)
    (dir : ∀ name es, (name, .dir es) ∈ l → WellNamed es) : WellNamed l

theorem WellNamed.nodup (h : WellNamed l) : (l.map Prod.fst).Nodup := by
  cases h; assumption

theorem WellNamed.dir (h : WellNamed l) (he : (name, .dir es) ∈ l) : WellNamed es := by
  cases h with
  | intro _ _ hdir => exact hdir name es he

theorem wellNamed_nil : WellNamed [] := ⟨List.nodup_nil, nofun, nofun⟩

/-- No slash stands in the path of a file. -/
theorem WellNamed.slash (hfile : FileAt l path content) (h : WellNamed l) :
    ∀ n ∈ path, 0x2F ∉ n := by
  induction hfile with
  | file hmem =>
    cases h with
    | intro _ hslash _ => simpa using hslash _ hmem
  | dir hmem _ ih =>
    cases h with
    | intro _ hslash hdir => simpa using ⟨hslash _ hmem, ih (hdir _ _ hmem)⟩

theorem WellNamed.tail {q : Name × Entry} (h : WellNamed (q :: l)) : WellNamed l := by
  cases h with
  | intro hnodup hslash hdir =>
    exact ⟨(List.nodup_cons.1 hnodup).2, fun q hq => hslash q (List.mem_cons_of_mem _ hq),
      fun n es he => hdir n es (List.mem_cons_of_mem _ he)⟩

theorem mem_of_find? (h : l.find? name = some e) : (name, e) ∈ l := by
  obtain ⟨front, back, rfl, -⟩ := List.lookup_eq_some_iff.1 h
  exact List.mem_append_cons_self

/-- An entry that is put into a directory takes the place of the one with its name. -/
theorem mem_or_of_mem_put {q : Name × Entry} (h : q ∈ l.put name e) : q = (name, e) ∨ q ∈ l := by
  induction l with
  | nil => simpa [Listing.put] using h
  | cons r l ih =>
    obtain ⟨n, old⟩ := r
    rw [Listing.put] at h
    split at h
    · next hn =>
      subst hn
      obtain rfl | h := List.mem_cons.1 h
      · exact .inl rfl
      · exact .inr (List.mem_cons_of_mem _ h)
    · obtain rfl | h := List.mem_cons.1 h
      · exact .inr List.mem_cons_self
      · exact (ih h).imp_right (List.mem_cons_of_mem _)

theorem nodup_put (h : (l.map Prod.fst).Nodup) : ((l.put name e).map Prod.fst).Nodup := by
  induction l with
  | nil => exact List.nodup_singleton name
  | cons r l ih =>
    obtain ⟨n, old⟩ := r
    obtain ⟨hn, hl⟩ := List.nodup_cons.1 h
    rw [Listing.put]
    split
    · exact h
    · next hne =>
      refine List.nodup_cons.2 ⟨fun hmem => ?_, ih hl⟩
      obtain ⟨q, hq, hname⟩ := List.mem_map.1 hmem
      obtain rfl | hq := mem_or_of_mem_put hq
      · exact hne hname.symm
      · exact hn (List.mem_map.2 ⟨q, hq, hname⟩)

theorem WellNamed.put (h : WellNamed l) (hname : 0x2F ∉ name)
    (he : ∀ es, e = .dir es → WellNamed es) : WellNamed (l.put name e) := by
  refine ⟨nodup_put h.nodup, fun q hq => ?_, fun n es hes => ?_⟩
  · obtain rfl | hq := mem_or_of_mem_put hq
    · exact hname
    · cases h with
      | intro _ hslash _ => exact hslash q hq
  · obtain heq | hes := mem_or_of_mem_put hes
    · exact he es (Prod.mk.inj heq).2.symm
    · exact h.dir hes

/-- A tree stays well named when the entry at a path is changed into one that is. -/
theorem WellNamed.update {f : Option Entry → Entry}
    (hf : ∀ o, (∀ es, o = some (.dir es) → WellNamed es) → ∀ es, f o = .dir es → WellNamed es)
    (hpath : ∀ n ∈ path, 0x2F ∉ n) (h : WellNamed l) : WellNamed (l.update f path) := by
  induction path generalizing l with
  | nil => exact h
  | cons name rest ih =>
    obtain ⟨hname, hrest⟩ := List.forall_mem_cons.1 hpath
    cases rest with
    | nil =>
      rw [Listing.update]
      refine h.put hname (hf _ fun es hes => ?_)
      exact h.dir (mem_of_find? hes)
    | cons name' rest =>
      simp only [Listing.update]
      refine h.put hname fun es hes => ?_
      obtain rfl := Entry.dir.inj hes
      refine ih hrest ?_
      split
      · next es hes => exact h.dir (mem_of_find? hes)
      · exact wellNamed_nil

/-- A file or link that is put at a path leaves a tree well named. -/
theorem WellNamed.insert (he : ∀ es, e = .dir es → WellNamed es) (hpath : ∀ n ∈ path, 0x2F ∉ n)
    (h : WellNamed l) : WellNamed (l.insert e path) :=
  h.update (fun _ _ => he) hpath

/-- So does a directory that is made at a path. -/
theorem WellNamed.makeDir (hpath : ∀ n ∈ path, 0x2F ∉ n) (h : WellNamed l) :
    WellNamed (l.makeDir path) := by
  refine h.update (fun o ho es hes => ?_) hpath
  split at hes
  · next es' =>
    obtain rfl := Entry.dir.inj hes
    exact ho _ rfl
  · obtain rfl := Entry.dir.inj hes
    exact wellNamed_nil

theorem fileAt_file_iff {bytes : List UInt8} : FileAt [(name, .file bytes)] path content ↔
    path = [name] ∧ content = bytes := by
  constructor
  · rintro (h | ⟨h, -⟩)
    · obtain ⟨rfl, hfile⟩ := Prod.mk.inj (List.mem_singleton.1 h)
      exact ⟨rfl, Entry.file.inj hfile⟩
    · cases List.mem_singleton.1 h
  · rintro ⟨rfl, rfl⟩
    exact .file (List.mem_singleton_self _)

theorem not_fileAt_link {target : List UInt8} : ¬ FileAt [(name, .link target)] path content := by
  rintro (h | ⟨h, -⟩) <;> cases List.mem_singleton.1 h

theorem fileAt_dir_iff : FileAt [(name, .dir es)] path content ↔
    ∃ rest, path = name :: rest ∧ FileAt es rest content := by
  constructor
  · rintro (h | ⟨h, hfile⟩)
    · cases List.mem_singleton.1 h
    · obtain ⟨rfl, hdir⟩ := Prod.mk.inj (List.mem_singleton.1 h)
      obtain rfl := Entry.dir.inj hdir
      exact ⟨_, rfl, hfile⟩
  · rintro ⟨rest, rfl, hfile⟩
    exact .dir (List.mem_singleton_self _) hfile

/-- The path of a file starts with the name of an entry of the directory. -/
theorem FileAt.exists_entry (h : FileAt l path content) :
    ∃ q ∈ l, ∃ rest, path = q.1 :: rest := by
  cases h with
  | file h => exact ⟨_, h, _, rfl⟩
  | dir h _ => exact ⟨_, h, _, rfl⟩

theorem fileAt_cons_iff {q : Name × Entry} :
    FileAt (q :: l) path content ↔ FileAt [q] path content ∨ FileAt l path content := by
  constructor
  · rintro (h | ⟨h, hfile⟩)
    · obtain rfl | h := List.mem_cons.1 h
      · exact .inl (.file (List.mem_singleton_self _))
      · exact .inr (.file h)
    · obtain rfl | h := List.mem_cons.1 h
      · exact .inl (.dir (List.mem_singleton_self _) hfile)
      · exact .inr (.dir h hfile)
  · rintro ((h | ⟨h, hfile⟩) | (h | ⟨h, hfile⟩))
    · exact .file (List.mem_singleton.1 h ▸ List.mem_cons_self)
    · exact .dir (List.mem_singleton.1 h ▸ List.mem_cons_self) hfile
    · exact .file (List.mem_cons_of_mem _ h)
    · exact .dir (List.mem_cons_of_mem _ h) hfile

/-! ## Walks -/

namespace Walk

theorem passesOver_iff (hw : w.honour = false) : w.passesOver name e ↔ name = versionControl := by
  simp [passesOver, hw]

theorem filesIn_cons (hw : w.honour = false) (name : Name) (e : Entry) (l : Listing) :
    w.filesIn ((name, e) :: l) =
      (if name = versionControl then [] else w.filesOf name e) ++ w.filesIn l := by
  rw [filesIn, if_congr (passesOver_iff hw) rfl rfl]

mutual

/-- The files that an entry is or holds, by induction on the entry. -/
theorem mem_filesOf {w : Walk} (hw : w.honour = false) (name : Name) (e : Entry) :
    f ∈ w.filesOf name e ↔ ∃ path, FileAt [(name, e)] (name :: path) f.content ∧
      versionControl ∉ path ∧ f.path = w.path.reverse ++ name :: path := by
  match e with
  | .file content =>
    rw [filesOf, List.mem_singleton]
    constructor
    · rintro rfl
      exact ⟨[], fileAt_file_iff.2 ⟨rfl, rfl⟩, List.not_mem_nil, List.reverse_cons⟩
    · rintro ⟨path, hfile, -, hpath⟩
      obtain ⟨hnil, hcontent⟩ := fileAt_file_iff.1 hfile
      obtain rfl := (List.cons.inj hnil).2
      cases f
      rw [FoundFile.mk.injEq, List.reverse_cons]
      exact ⟨hpath, hcontent⟩
  | .link target =>
    rw [filesOf]
    constructor
    · rintro ⟨⟩
    · rintro ⟨path, hfile, -⟩
      exact absurd hfile not_fileAt_link
  | .dir es =>
    have henter : (w.enter name es).honour = false := hw
    have hpath : (w.enter name es).path = name :: w.path := rfl
    rw [filesOf, mem_filesIn henter es, hpath, List.reverse_cons]
    simp [fileAt_dir_iff]

/-- The files that the entries of a directory are or hold, by induction on the entries. -/
theorem mem_filesIn {w : Walk} (hw : w.honour = false) (l : List (Name × Entry)) :
    f ∈ w.filesIn l ↔ ∃ path, FileAt l path f.content ∧ versionControl ∉ path ∧
      f.path = w.path.reverse ++ path := by
  match l with
  | [] =>
    rw [filesIn]
    constructor
    · rintro ⟨⟩
    · rintro ⟨path, hfile, -⟩
      obtain ⟨q, hq, -⟩ := hfile.exists_entry
      exact absurd hq List.not_mem_nil
  | (name, e) :: l =>
    rw [filesIn_cons hw, List.mem_append, mem_filesIn hw l]
    constructor
    · rintro (hf | ⟨path, hfile, hvc, hpath⟩)
      · split at hf
        · cases hf
        · next hname =>
          obtain ⟨path, hfile, hvc, hpath⟩ := (mem_filesOf hw name e).1 hf
          exact ⟨name :: path, fileAt_cons_iff.2 (.inl hfile), by simp [hvc, Ne.symm hname], hpath⟩
      · exact ⟨path, fileAt_cons_iff.2 (.inr hfile), hvc, hpath⟩
    · rintro ⟨path, hfile, hvc, hpath⟩
      obtain hfile | hfile := fileAt_cons_iff.1 hfile
      · obtain ⟨q, hq, rest, rfl⟩ := hfile.exists_entry
        obtain rfl := List.mem_singleton.1 hq
        obtain ⟨hname, hrest⟩ := not_or.1 (mt List.mem_cons.2 hvc)
        left
        rw [if_neg (Ne.symm hname)]
        exact (mem_filesOf hw name e).2 ⟨rest, hfile, hrest, hpath⟩
      · exact .inr ⟨path, hfile, hvc, hpath⟩

end

mutual

theorem nodup_path_filesOf {w : Walk} (hw : w.honour = false) (name : Name) (e : Entry)
    (h : ∀ es, e = .dir es → WellNamed es) : ((w.filesOf name e).map FoundFile.path).Nodup := by
  match e with
  | .file content => exact List.nodup_singleton _
  | .link target => exact List.nodup_nil
  | .dir es => exact nodup_path_filesIn (w := w.enter name es) hw es (h es rfl)

/-- No two files have the same path, as those of two entries have different names in the place
of the entry. -/
theorem nodup_path_filesIn {w : Walk} (hw : w.honour = false) (l : List (Name × Entry))
    (h : WellNamed l) : ((w.filesIn l).map FoundFile.path).Nodup := by
  match l with
  | [] => exact List.nodup_nil
  | (name, e) :: l =>
    rw [filesIn_cons hw, List.map_append]
    refine List.nodup_append.2 ⟨?_, nodup_path_filesIn hw l h.tail, ?_⟩
    · split
      · exact List.nodup_nil
      · exact nodup_path_filesOf hw name e fun es he => by
          subst he
          exact h.dir List.mem_cons_self
    · rintro _ hp _ hq rfl
      obtain ⟨f, hf, rfl⟩ := List.mem_map.1 hp
      obtain ⟨g, hg, hgf⟩ := List.mem_map.1 hq
      split at hf
      · cases hf
      · -- One path goes on with the name, the other one with the name of another entry.
        obtain ⟨path, -, -, hpath⟩ := (mem_filesOf hw name e).1 hf
        obtain ⟨path', hfile, -, hpath'⟩ := (mem_filesIn hw l).1 hg
        obtain ⟨q, hq, rest, rfl⟩ := hfile.exists_entry
        rw [hpath, hpath', List.append_cancel_left_eq] at hgf
        have hname : q.1 = name := (List.cons.inj hgf).1
        exact (List.nodup_cons.1 h.nodup).1 (List.mem_map.2 ⟨q, hq, hname⟩)

end

end Walk

namespace Place

variable {p : Place}

/-- Where ignore files do not matter, the files below a directory are those at paths without
an entry called `.git`. -/
theorem mem_files : f ∈ p.files false ↔ FileAt p.entries f.path f.content ∧ versionControl ∉ f.path := by
  rw [files, Walk.mem_filesIn rfl]
  constructor
  · rintro ⟨path, hfile, hvc, hpath⟩
    rw [hpath]
    exact ⟨hfile, hvc⟩
  · rintro ⟨hfile, hvc⟩
    exact ⟨f.path, hfile, hvc, rfl⟩

theorem nodup_path_files (h : WellNamed p.entries) : ((p.files false).map FoundFile.path).Nodup :=
  Walk.nodup_path_filesIn rfl _ h

end Place

end Layering.Files
