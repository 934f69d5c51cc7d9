import Layering.Proofs.Extractor
import Layering.Proofs.Text.Utf8
import Layering.Proofs.Walk
import Layering.Scanner

/-!
# What a scan finds

Where ignore files do not matter, a scan turns each file that the configuration wants into a
unit, and nothing else, in the order of the paths and whatever the order in which the files
are found (`Scanner.scan_exact`). With the standard extensions there is always a corpus.
-/

namespace Layering

open Files

/-- The name that a text is. -/
def Files.nameOf (s : String) : Name := Text.encode s.toList

variable {s : Scanner} {c : ScanConfig} {p : Place} {l : Listing} {n t path root : String}
  {names names' : List String} {content content' : List UInt8} {f g : FoundFile}
  {u v : SourceUnit} {corpus : Corpus}

namespace Files

theorem nameOf_inj (h : nameOf n = nameOf t) : n = t :=
  String.toList_inj.1 (Text.encode_inj h)

theorem nameOf_lt_nameOf (h : n < t) : nameOf n < nameOf t :=
  Text.encode_lt_encode (String.lt_iff_toList_lt.1 h)

theorem versionControl_mem_iff : versionControl ∈ names.map nameOf ↔ ".git" ∈ names := by
  constructor
  · intro h
    obtain ⟨n, hn, hname⟩ := List.mem_map.1 h
    exact nameOf_inj hname ▸ hn
  · intro h
    exact List.mem_map.2 ⟨_, h, rfl⟩

theorem slash_not_mem (h : 0x2F ∉ nameOf n) : '/' ∉ n.toList :=
  fun hmem => h ((Text.mem_encode_iff rfl (by decide)).2 hmem)

/-- Names without slashes are known from the path that they make. -/
theorem intercalate_slash_inj (hne : names ≠ []) (hne' : names' ≠ [])
    (hs : ∀ n ∈ names, '/' ∉ n.toList) (hs' : ∀ n ∈ names', '/' ∉ n.toList)
    (h : "/".intercalate names = "/".intercalate names') : names = names' := by
  have hsplit : ∀ ns : List String, ns ≠ [] → (∀ n ∈ ns, '/' ∉ n.toList) →
      ("/".intercalate ns).toList.splitOn '/' = ns.map String.toList := fun ns hne hs => by
    rw [String.toList_intercalate]
    exact List.splitOn_intercalate '/' (by simpa using hs) (by simpa using hne)
  have hlists := hsplit names hne hs
  rw [h, hsplit names' hne' hs'] at hlists
  exact List.map_injective_iff.2 (fun _ _ => String.toList_inj.1) hlists.symm

/-- A path ends with the last of its names. -/
theorem suffix_intercalate (hne : names ≠ []) :
    (names.getLastD "").toList <:+ ("/".intercalate names).toList := by
  rw [String.toList_intercalate]
  induction names with
  | nil => exact absurd rfl hne
  | cons n names ih =>
    cases names with
    | nil => simp
    | cons m names =>
      rw [List.map_cons, List.map_cons, List.intercalate_cons_cons]
      exact (ih (List.cons_ne_nil _ _)).trans (List.suffix_append _ _)

end Files

/-! ## Extensions -/

namespace ScanConfig

/-- A name has one of the extensions after its last dot, which is not its first character.
The case of ASCII letters does not matter. -/
def HasExtension (c : ScanConfig) (name : String) : Prop :=
  ∃ stem ext, name = stem ++ "." ++ ext ∧ stem ≠ "" ∧ '.' ∉ ext.toList ∧
    ∃ e ∈ c.extensions, Text.eqIgnoreAsciiCase e ext

theorem wantsName_iff {name : Name} : c.wantsName name ↔
    ∃ ext, extension? name = some (nameOf ext) ∧ c.wantsExtension ext := by
  have htext : ∀ ext, (extension? name).bind Text.decode? = some ext ↔
      extension? name = some (nameOf ext) := fun ext => by
    rw [Option.bind_eq_some_iff]
    simp only [Text.decode?_eq_some_iff, exists_eq_right, nameOf]
  rw [wantsName]
  split
  · next ext h =>
    rw [htext] at h
    constructor
    · intro hwants
      exact ⟨ext, h, hwants⟩
    · rintro ⟨ext', hext, hwants⟩
      rwa [nameOf_inj (Option.some.inj (h.symm.trans hext))]
  · next h =>
    refine iff_of_false Bool.false_ne_true ?_
    rintro ⟨ext, hext, -⟩
    rw [← htext, h] at hext
    cases hext

theorem wantsName_nameOf_iff : c.wantsName (nameOf n) ↔ c.HasExtension n := by
  have hdot : Text.encodeChar '.' = [0x2E] := rfl
  have hsmall : (0x2E : UInt8).toNat < 0x80 := by decide
  rw [wantsName_iff]
  constructor
  · rintro ⟨ext, hext, hwants⟩
    obtain ⟨stem, hstem, hn, hext⟩ := extension?_eq_some_iff.1 hext
    obtain ⟨l, m, hl, rfl, hm⟩ := Text.encode_eq_append_cons hdot hsmall hn
    obtain rfl := Text.encode_inj hm
    refine ⟨String.ofList l, ext, ?_, ?_, ?_, by simpa [wantsExtension] using hwants⟩
    · rw [← String.toList_inj, hl]
      simp
    · intro hnil
      obtain rfl : l = [] := String.ofList_injective hnil
      exact hstem rfl
    · exact fun hmem => hext ((Text.mem_encode_iff hdot hsmall).2 hmem)
  · rintro ⟨stem, ext, rfl, hstem, hext, hwants⟩
    refine ⟨ext, extension?_eq_some_iff.2 ⟨nameOf stem, ?_, ?_, ?_⟩,
      by simpa [wantsExtension] using hwants⟩
    · exact fun hnil => hstem (nameOf_inj (t := "") hnil)
    · simp [nameOf, Text.encode, hdot]
    · exact fun hmem => hext ((Text.mem_encode_iff hdot hsmall).1 hmem)

/-- The standard extensions end in letters. -/
theorem HasExtension.exists_letter (h : standard.HasExtension n) :
    ∃ z, n.toList.getLast? = some z ∧ z.toLower ∈ ['c', 'h', 'p', 'x'] := by
  obtain ⟨stem, ext, rfl, -, -, e, he, hext⟩ := h
  have hends : ∀ e ∈ standard.extensions,
      (e.toList.map Char.toLower).getLast? ∈ ['c', 'h', 'p', 'x'].map some := by decide
  obtain ⟨y, hy, hend⟩ := List.mem_map.1 (hends e he)
  rw [beq_iff_eq.1 hext, List.getLast?_map, eq_comm, Option.map_eq_some_iff] at hend
  obtain ⟨z, hz, rfl⟩ := hend
  refine ⟨z, ?_, hy⟩
  rw [String.toList_append, List.getLast?_append, hz]
  rfl

/-- These letters are neither blanks nor separators, in either case. -/
theorem plain_of_toLower {z : Char} (h : z.toLower ∈ ['c', 'h', 'p', 'x']) :
    Text.isBlank z = false ∧ Path.isSeparator z = false := by
  by_cases hupper : z.val ≥ 'A'.val ∧ z.val ≤ 'Z'.val
  · have hlow : 65 ≤ z.toNat := UInt32.le_iff_toNat_le.1 hupper.1
    have hhigh : z.toNat ≤ 90 := UInt32.le_iff_toNat_le.1 hupper.2
    have hne : ∀ d : Char, d.toNat < 65 ∨ 90 < d.toNat → (z == d) = false := fun d hd => by
      rw [beq_eq_false_iff_ne]
      rintro rfl
      omega
    constructor
    · rw [Text.isBlank]
      simp
      omega
    · rw [Path.isSeparator, hne _ (by decide), hne _ (by decide)]
      rfl
  · have hlower : z.toLower = z := dif_neg hupper
    rw [hlower] at h
    simp only [List.mem_cons, List.not_mem_nil, or_false] at h
    obtain rfl | rfl | rfl | rfl := h <;> decide

end ScanConfig

/-! ## Units of files -/

/-- The file at a path of names in a directory is one that a configuration wants. -/
structure ScanConfig.Wants (c : ScanConfig) (l : Listing) (names : List String)
    (content : List UInt8) : Prop where
  file : FileAt l (names.map nameOf) content
  visible : ".git" ∉ names
  extension : c.HasExtension (names.getLastD "")
  included : ∀ pattern ∈ c.exclude, ∀ g, Glob.parse Scanner.excludeOptions pattern = .ok g →
    ¬ g.isMatch ("/".intercalate names)

namespace Scanner

theorem any_readExclude {gs : List Glob} {patterns : List String}
    (h : readExclude patterns = .ok gs) (path : String) : gs.any (·.isMatch path) ↔
      ∃ pattern ∈ patterns, ∃ g, Glob.parse excludeOptions pattern = .ok g ∧ g.isMatch path := by
  induction patterns generalizing gs with
  | nil =>
    obtain rfl := Except.ok.inj h
    simp
  | cons pattern patterns ih =>
    rw [readExclude] at h
    split at h
    · next g hg =>
      cases hgs : readExclude patterns with
      | error e => simp [hgs, Except.map] at h
      | ok gs' =>
        rw [hgs] at h
        obtain rfl := Except.ok.inj h
        rw [List.any_cons, Bool.or_eq_true, ih hgs]
        simp [hg]
    · cases h

theorem ofConfig_eq_ok (h : ofConfig c = .ok s) :
    s.config = c ∧ readExclude c.exclude = .ok s.exclude := by
  rw [ofConfig] at h
  cases hexclude : readExclude c.exclude with
  | error e => simp [hexclude, bind, Except.bind] at h
  | ok exclude =>
    cases hextractor : Extractor.ofConfig c with
    | error e => simp [hexclude, hextractor, bind, Except.bind, Except.mapError] at h
    | ok extractor =>
      rw [hexclude, hextractor] at h
      obtain rfl := Except.ok.inj h
      exact ⟨Extractor.config_of_ofConfig hextractor, rfl⟩

/-- Names are text if each is, and the path of the file is made of the texts. -/
theorem pathText?_eq_some_iff {ns : List Name} : pathText? ns = some path ↔
    ∃ names, ns = names.map nameOf ∧ path = "/".intercalate names := by
  have hnames : ∀ names, ns.mapM Text.decode? = some names ↔ ns = names.map nameOf := fun names =>
    Text.mapM_eq_some_iff fun _ _ => Text.decode?_eq_some_iff
  rw [pathText?, Option.map_eq_some_iff]
  simp only [hnames, eq_comm]

theorem getLastD_map_nameOf (names : List String) :
    (names.map nameOf).getLastD [] = nameOf (names.getLastD "") := by
  rw [List.getLastD_eq_getLast?, List.getLastD_eq_getLast?, List.getLast?_map]
  cases names.getLast? <;> rfl

theorem unit?_eq_some_iff : s.unit? f = some u ↔ ∃ names, f.path = names.map nameOf ∧
    s.config.HasExtension (names.getLastD "") ∧ ¬ s.excludes ("/".intercalate names) ∧
    u = s.extractor.unit ("/".intercalate names) (Text.decodeLossy f.content) := by
  constructor
  · intro h
    rw [unit?] at h
    split at h
    · next hwants =>
      split at h
      · next path htext =>
        obtain ⟨names, hnames, rfl⟩ := pathText?_eq_some_iff.1 htext
        split at h
        · cases h
        · next hexcludes =>
          rw [hnames, getLastD_map_nameOf, ScanConfig.wantsName_nameOf_iff] at hwants
          exact ⟨names, hnames, hwants, hexcludes, (Option.some.inj h).symm⟩
      · cases h
    · cases h
  · rintro ⟨names, hnames, hwants, hexcludes, rfl⟩
    have htext := pathText?_eq_some_iff.2 ⟨names, hnames, rfl⟩
    have hlast : s.config.wantsName (f.path.getLastD []) := by
      rw [hnames, getLastD_map_nameOf]
      exact ScanConfig.wantsName_nameOf_iff.2 hwants
    rw [unit?, if_pos hlast, htext]
    exact if_neg hexcludes

/-- The units of the files below a directory are those of the files that are wanted. -/
theorem mem_units_iff (hs : ofConfig c = .ok s) : u ∈ (p.files false).filterMap s.unit? ↔
    ∃ names content, c.Wants p.entries names content ∧
      u = s.extractor.unit ("/".intercalate names) (Text.decodeLossy content) := by
  obtain ⟨rfl, hexclude⟩ := ofConfig_eq_ok hs
  have hexcludes : ∀ path, ¬ s.excludes path ↔ ∀ pattern ∈ s.config.exclude, ∀ g,
      Glob.parse excludeOptions pattern = .ok g → ¬ g.isMatch path := fun path => by
    rw [excludes, any_readExclude hexclude]
    simp
  simp only [List.mem_filterMap, Place.mem_files, unit?_eq_some_iff, hexcludes]
  constructor
  · rintro ⟨f, ⟨hfile, hvc⟩, names, hnames, hext, hin, rfl⟩
    rw [hnames] at hfile hvc
    exact ⟨names, f.content, ⟨hfile, mt versionControl_mem_iff.2 hvc, hext, hin⟩, rfl⟩
  · rintro ⟨names, content, hwants, rfl⟩
    have hvc := mt versionControl_mem_iff.1 hwants.visible
    exact ⟨⟨names.map nameOf, content⟩, ⟨hwants.file, hvc⟩, names, rfl, hwants.extension,
      hwants.included, rfl⟩

/-! ## Paths of units -/

theorem slash_not_mem_of_fileAt (h : WellNamed l) (hfile : FileAt l (names.map nameOf) content) :
    ∀ n ∈ names, '/' ∉ n.toList := fun n hn =>
  slash_not_mem (h.slash hfile _ (List.mem_map.2 ⟨n, hn, rfl⟩))

theorem ne_nil_of_fileAt (hfile : FileAt l (names.map nameOf) content) : names ≠ [] := by
  rintro rfl
  cases hfile

/-- Files of a directory whose paths read the same have the same path. -/
theorem names_eq_of_fileAt (h : WellNamed l) (hfile : FileAt l (names.map nameOf) content)
    (hfile' : FileAt l (names'.map nameOf) content')
    (hpath : "/".intercalate names = "/".intercalate names') : names = names' :=
  intercalate_slash_inj (ne_nil_of_fileAt hfile) (ne_nil_of_fileAt hfile')
    (slash_not_mem_of_fileAt h hfile) (slash_not_mem_of_fileAt h hfile') hpath

/-- The units of the files below a directory have distinct paths. -/
theorem nodup_path_units (h : WellNamed p.entries) :
    (((p.files false).filterMap s.unit?).map SourceUnit.path).Nodup := by
  refine List.pairwise_map.2 (List.pairwise_filterMap.2 ?_)
  refine (List.pairwise_map.1 (Place.nodup_path_files h)).imp_of_mem fun {f g} hf hg hne => ?_
  intro u hu v hv hpath
  obtain ⟨names, hnames, -, -, rfl⟩ := unit?_eq_some_iff.1 hu
  obtain ⟨names', hnames', -, -, rfl⟩ := unit?_eq_some_iff.1 hv
  have hfile := (Place.mem_files.1 hf).1
  have hfile' := (Place.mem_files.1 hg).1
  rw [hnames] at hfile
  rw [hnames'] at hfile'
  refine hne ?_
  rw [hnames, hnames', names_eq_of_fileAt h hfile hfile' hpath]

/-- A unit of a file with one of the standard extensions is sound. -/
theorem isSound_of_hasExtension (hn : names ≠ []) (x : Extractor) (text : String)
    (h : ScanConfig.standard.HasExtension (names.getLastD "")) :
    (x.unit ("/".intercalate names) text).IsSound := by
  obtain ⟨z, hz, hletter⟩ := h.exists_letter
  obtain ⟨hblank, hsep⟩ := ScanConfig.plain_of_toLower hletter
  obtain ⟨front, hfront⟩ := suffix_intercalate hn
  refine x.isSound_unit text ?_ hblank hsep
  rw [← hfront, List.getLast?_append, hz]
  rfl

/-! ## Scans -/

theorem scan_eq (hs : ofConfig c = .ok s) (hignore : c.respectIgnoreFiles = false) (root : String) :
    s.scan root (some p) =
      (Corpus.sorted ((p.files false).filterMap s.unit?)).mapError .corpus := by
  rw [scan, scanPlace, (ofConfig_eq_ok hs).1, hignore]

theorem mapError_eq_ok_iff {ε ε' α : Type} {f : ε → ε'} {x : Except ε α} {a : α} :
    x.mapError f = .ok a ↔ x = .ok a := by
  cases x <;> simp [Except.mapError]

/-- A scan with the standard extensions never fails. -/
theorem exists_scan (hs : ofConfig c = .ok s) (hignore : c.respectIgnoreFiles = false)
    (hp : WellNamed p.entries) (hext : c.extensions = ScanConfig.standard.extensions)
    (root : String) : ∃ corpus, s.scan root (some p) = .ok corpus := by
  have hsound : ∀ u ∈ (p.files false).filterMap s.unit?, u.IsSound := fun u hu => by
    obtain ⟨names, content, hwants, rfl⟩ := (mem_units_iff hs).1 hu
    refine isSound_of_hasExtension (ne_nil_of_fileAt hwants.file) _ _ ?_
    simpa only [ScanConfig.HasExtension, hext] using hwants.extension
  obtain ⟨corpus, hcorpus⟩ := Corpus.exists_sorted hsound (nodup_path_units hp)
  refine ⟨corpus, ?_⟩
  rw [scan_eq hs hignore, hcorpus]
  rfl

/-- Where ignore files do not matter, a scan that gives a corpus turns each wanted file into a
unit of its own, and nothing else, in the order of the bytes of the paths. The order in which
the files are found does not matter, and the standard extensions always give a corpus. -/
theorem scan_exact (hs : ofConfig c = .ok s) (hignore : c.respectIgnoreFiles = false)
    (hp : WellNamed p.entries) (root : String) :
    (∀ corpus, s.scan root (some p) = .ok corpus →
      (∀ u, u ∈ corpus.units ↔ ∃ names content, c.Wants p.entries names content ∧
        u = s.extractor.unit ("/".intercalate names) (Text.decodeLossy content)) ∧
      (corpus.units.map fun u => nameOf u.path).Pairwise (· < ·)) ∧
    (∀ names content names' content', c.Wants p.entries names content →
      c.Wants p.entries names' content' → "/".intercalate names = "/".intercalate names' →
      names = names' ∧ content = content') ∧
    (∀ fs : List FoundFile, fs.Perm (p.files c.respectIgnoreFiles) →
      (Corpus.sorted (fs.filterMap s.unit?)).mapError .corpus = s.scan root (some p)) ∧
    (c.extensions = ScanConfig.standard.extensions →
      ∃ corpus, s.scan root (some p) = .ok corpus) := by
  refine ⟨fun corpus h => ?_, ?_, fun fs hfs => ?_, fun hext => exists_scan hs hignore hp hext root⟩
  · have hsorted := mapError_eq_ok_iff.1 ((scan_eq hs hignore root).symm.trans h)
    refine ⟨fun u => (Corpus.mem_units_sorted hsorted).trans (mem_units_iff hs), ?_⟩
    exact List.pairwise_map.2 ((Corpus.ascending_units_sorted hsorted).imp nameOf_lt_nameOf)
  · intro names content names' content' h h' hpath
    obtain rfl := names_eq_of_fileAt hp h.file h'.file hpath
    -- The walk finds a file at a path only once, so with one content.
    have hvc := mt versionControl_mem_iff.1 h.visible
    have hf : ⟨names.map nameOf, content⟩ ∈ p.files false := Place.mem_files.2 ⟨h.file, hvc⟩
    have hg : ⟨names.map nameOf, content'⟩ ∈ p.files false := Place.mem_files.2 ⟨h'.file, hvc⟩
    have hfg := List.inj_on_of_nodup_map (Place.nodup_path_files hp) hf hg rfl
    exact ⟨rfl, congrArg FoundFile.content hfg⟩
  · rw [hignore] at hfs
    rw [scan_eq hs hignore]
    have hperm := (hfs.filterMap s.unit?).symm
    rw [Corpus.sorted_perm hperm (nodup_path_units hp)]

/-- A configuration that leaves out one directory and looks for no entry points. -/
def buildConfig : ScanConfig :=
  { ScanConfig.standard with
    exclude := ["**/obj/**"], respectIgnoreFiles := false, entryPatterns := [] }

/-- Its scanner. -/
def buildScanner : Scanner where
  exclude := [⟨excludeOptions, [.anyPrefix, .literal 'o', .literal 'b', .literal 'j', .anySuffix]⟩]
  extractor := ⟨buildConfig, []⟩

/-- A tree of which a scan wants two files. The others are in a directory that is left out, in
a directory of a version control system, behind a link, or have another extension or a name
that is no text. -/
def buildTree : Place := .top [
  (nameOf "src", .dir [(nameOf "b.h", .file (nameOf "#include <a.h>\n"))]),
  (nameOf ".git", .dir [(nameOf "c.c", .file [])]),
  (nameOf "a.C", .file []),
  (nameOf "l.c", .link (nameOf "a.C")),
  ([0xFF, 0x2E, 0x63], .file []),
  (nameOf "obj", .dir [(nameOf "d.c", .file [])]),
  (nameOf "notes.txt", .file [])]

theorem wellNamed_buildTree : WellNamed buildTree.entries := by
  -- The entries come into the tree path by path, the last one first in this row.
  have hmade : buildTree.entries =
      (Listing.insert (.file []) [nameOf "notes.txt"] <|
        Listing.insert (.file []) [nameOf "obj", nameOf "d.c"] <|
        Listing.insert (.file []) [[0xFF, 0x2E, 0x63]] <|
        Listing.insert (.link (nameOf "a.C")) [nameOf "l.c"] <|
        Listing.insert (.file []) [nameOf "a.C"] <|
        Listing.insert (.file []) [nameOf ".git", nameOf "c.c"] <|
        Listing.insert (.file (nameOf "#include <a.h>\n")) [nameOf "src", nameOf "b.h"] <|
        Listing.makeDir [nameOf "src"] []) := rfl
  rw [hmade]
  iterate 7 refine .insert nofun (by decide) ?_
  exact wellNamed_nil.makeDir (by decide)

/-- The scan of the tree holds the two files, although one is found in a directory before the
other. -/
theorem scan_exact_build : ∃ corpus, buildScanner.scan "." (some buildTree) = .ok corpus ∧
    corpus.units = [⟨"a.C", [], [], false⟩, ⟨"src/b.h", [], ["a.h"], false⟩] := by
  have hscanner : ofConfig buildConfig = .ok buildScanner := rfl
  obtain ⟨-, -, hperm, hexists⟩ := scan_exact hscanner rfl wellNamed_buildTree "."
  obtain ⟨corpus, hcorpus⟩ := hexists rfl
  refine ⟨corpus, hcorpus, ?_⟩
  -- Delivered the other way round the units are sorted.
  have hreversed := hperm _ (List.reverse_perm _)
  have hunits : ((buildTree.files buildConfig.respectIgnoreFiles).reverse.filterMap
      buildScanner.unit?) = [⟨"a.C", [], [], false⟩, ⟨"src/b.h", [], ["a.h"], false⟩] := by
    decide +kernel
  rw [hunits, hcorpus, mapError_eq_ok_iff] at hreversed
  rw [Corpus.ofUnits_eq_ok_iff.1 hreversed]
  exact List.mergeSort_of_pairwise (by decide +kernel)

end Scanner

end Layering
