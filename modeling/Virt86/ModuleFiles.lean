import Virt86.CStrings
import Mathlib.Data.List.Induction
import Mathlib.Data.List.TakeWhile

/-!
# Files of kernel modules

`modules.dep` has a line for each module: the path of its file, a colon, and the paths it depends
on. `mmapKernelModuleFile` goes through the lines until the name of a file is that of the module.
The file is mapped in whole pages, so NULs follow its last byte unless it fills the last page.
-/

namespace Virt86

namespace ModuleFiles

open CStrings

def newline : U8 := 0x0A
def colon : U8 := 0x3A
def slash : U8 := 0x2F
def dot : U8 := 0x2E
def numberSign : U8 := 0x23
def underscore : U8 := 0x5F
def hyphen : U8 := 0x2D

/-- `"\t "`. -/
def blanks : List U8 := [0x09, 0x20]

/-- The distance of the first such byte, which is looked for up to the end of the file. -/
def memchr (c : U8) : List U8 → Option ℕ
  | [] => none
  | b :: p => if b = c then some 0 else (memchr c p).map (· + 1)

/-- The length of the part that has only these bytes; `none` is a read past the mapping. -/
def strspn (accept : List U8) : List U8 → Option ℕ
  | [] => none
  | b :: p => if accept.contains b then (strspn accept p).map (· + 1) else some 0

/-- The length of the part before the byte, or before the end of the string. -/
def strcspn (reject : U8) : List U8 → Option ℕ
  | [] => none
  | b :: p => if b = 0 ∨ b = reject then some 0 else (strcspn reject p).map (· + 1)

/-- What is left of the file after its first line. -/
def nextLine (line : List U8) : List U8 :=
  match memchr newline line with
  | some eol => line.drop (eol + 1)
  | none => []

/-- The loop that goes back from the colon, at `p`, to behind a slash or to the first byte. -/
def afterSlash (line : List U8) : ℕ → ℕ
  | 0 => 0
  | p + 1 => if (line)[p + 1]? = some slash then p + 2 else afterSlash line p

/-- The loop that compares the name of the module with what `p` points to, and the test for the
extension after it. -/
def compareName : List U8 → List U8 → Option Bool
  | [], p => p.head?.map fun c => decide (c = dot)
  | m :: modname, p =>
    if m = colon then compareName modname p.tail
    else
      match p with
      | [] => none
      | c :: p =>
        if m = c ∨ (m = underscore ∧ c = hyphen) ∨ (m = hyphen ∧ c = underscore) then
          compareName modname p
        else some false

/-- `name_matches`, with the bytes that follow the file in memory. -/
def nameMatches (modname : CString) (line after : List U8) : Option Bool :=
  (strspn blanks (line ++ after)).bind fun i =>
    if (line ++ after)[i]? = some numberSign then some false
    else
      match memchr colon line with
      | none => some false
      | some p => compareName modname.chars ((line ++ after).drop (afterSlash line p))

/-- The name of the file, from a pointer to a line that matches. -/
def filename (modulesPath p : List U8) : Option (List U8) :=
  let dir := if p.head? = some slash then [] else modulesPath
  (strcspn colon p).bind fun namelen =>
    if dir ≠ [] then
      (text p).map fun s => (dir ++ slash :: s).take (namelen + dir.length + 1)
    else some (p.take namelen)

theorem length_nextLine_lt {line : List U8} (h : line ≠ []) :
    (nextLine line).length < line.length := by
  have hpos : 0 < line.length := List.length_pos_iff.mpr h
  rw [nextLine]
  split
  · rw [List.length_drop]
    omega
  · exact hpos

/-- The loop of `mmapKernelModuleFile`. `none` is a read past the mapping, and `some none` that no
line matches. -/
def moduleFilename (modulesPath : List U8) (name : CString) (after line : List U8) :
    Option (Option (List U8)) :=
  if line = [] then some none
  else
    (nameMatches name line after).bind fun found =>
      if found then (filename modulesPath (line ++ after)).map some
      else moduleFilename modulesPath name after (nextLine line)
termination_by line.length
decreasing_by exact length_nextLine_lt ‹line ≠ []›

/-- `"/lib/modules"`, a slash and the release of the kernel. -/
def getModulesPath (release : List U8) : List U8 :=
  [0x2F, 0x6C, 0x69, 0x62, 0x2F, 0x6D, 0x6F, 0x64, 0x75, 0x6C, 0x65, 0x73] ++ slash :: release

/-- `"modules.dep"`. -/
def modulesDep : List U8 :=
  [0x6D, 0x6F, 0x64, 0x75, 0x6C, 0x65, 0x73, 0x2E, 0x64, 0x65, 0x70]

def hostPageSize : ℕ := 4096

/-- The bytes after a file of that length in its mapping. -/
def mappingRest (length : ℕ) : List U8 :=
  List.replicate ((hostPageSize - length % hostPageSize) % hostPageSize) 0

/-- `mmapKernelModuleFile`, with the files that can be read. -/
def mmapKernelModuleFile (readFile : List U8 → Option (List U8)) (release : List U8)
    (name : CString) : Option (Option (List U8)) :=
  let modulesPath := getModulesPath release
  match readFile (modulesPath ++ slash :: modulesDep) with
  | none => some none
  | some data =>
    (moduleFilename modulesPath name (mappingRest data.length) data).map fun found =>
      found.bind readFile

/-! ## Lines -/

/-- The path of a file in `modules.dep`. Its line is not taken for a comment. -/
structure DepPath where
  chars : List U8
  no_nul : 0 ∉ chars
  no_colon : colon ∉ chars
  no_newline : newline ∉ chars
  no_comment : (chars.dropWhile blanks.contains).head? ≠ some numberSign

/-- The rest of a line. -/
structure LineRest where
  chars : List U8
  no_nul : 0 ∉ chars
  no_newline : newline ∉ chars

inductive DepLine where
  | entry (path : DepPath) (dependencies : LineRest)
  | comment (indent : List U8) (isBlank : ∀ b ∈ indent, blanks.contains b = true)
    (words : LineRest)

def DepLine.bytes : DepLine → List U8
  | .entry path dependencies => path.chars ++ colon :: dependencies.chars
  | .comment indent _ words => indent ++ numberSign :: words.chars

/-- The file that has these lines. -/
def depFile (lines : List DepLine) : List U8 := lines.flatMap fun line => line.bytes ++ [newline]

/-- What is behind the last slash, the first byte of a path not counted. -/
def fileName (path : List U8) : List U8 :=
  if path.tail.contains slash then (path.reverse.takeWhile (· ≠ slash)).reverse else path

theorem fileName_of_mem {path : List U8} (h : slash ∈ path.tail) :
    fileName path = (path.reverse.takeWhile (· ≠ slash)).reverse :=
  if_pos (List.contains_iff_mem.mpr h)

theorem fileName_of_notMem {path : List U8} (h : slash ∉ path.tail) : fileName path = path :=
  if_neg fun hmem => h (List.contains_iff_mem.mp hmem)

def fold (c : U8) : U8 := if c = underscore then hyphen else c

/-- A file is that of a module when its name is the module's, with hyphens for underscores or the
other way round, and goes on with a dot. -/
def NameMatches (modname file : List U8) : Prop :=
  modname.map fold <+: file.map fold ∧ file[modname.length]? = some dot

instance (modname file : List U8) : Decidable (NameMatches modname file) :=
  inferInstanceAs (Decidable (_ ∧ _))

/-- The path in a line, when it is that of the module's file. -/
def DepLine.pathOf (name : List U8) : DepLine → Option (List U8)
  | .entry path _ => if NameMatches name (fileName path.chars) then some path.chars else none
  | .comment _ _ _ => none

/-- The file of a module: that of the first line that has one. -/
def modulePath (lines : List DepLine) (name : CString) : Option (List U8) :=
  lines.findSome? (DepLine.pathOf name.chars)

/-- The name under which the file is opened. -/
def fullPath (modulesPath path : List U8) : List U8 :=
  if path.head? = some slash then path else modulesPath ++ slash :: path

/-! ## The functions on a line -/

theorem memchr_found {c : U8} {s : List U8} (h : c ∉ s) (rest : List U8) :
    memchr c (s ++ c :: rest) = some s.length := by
  induction s with
  | nil => rw [List.nil_append, memchr, if_pos rfl, List.length_nil]
  | cons b s ih =>
    rw [List.mem_cons, not_or] at h
    rw [List.cons_append, memchr, if_neg (Ne.symm h.1), ih h.2]
    rfl

theorem nextLine_eq {s : List U8} (h : newline ∉ s) (rest : List U8) :
    nextLine (s ++ newline :: rest) = rest := by
  have hdrop : (s ++ newline :: rest).drop (s.length + 1) = rest := by
    rw [← List.drop_drop, List.drop_left]
    rfl
  rw [nextLine, memchr_found h]
  exact hdrop

theorem strspn_eq {s : List U8} (h : ∀ b ∈ s, blanks.contains b = true) {c : U8}
    (hc : blanks.contains c = false) (rest : List U8) :
    strspn blanks (s ++ c :: rest) = some s.length := by
  induction s with
  | nil =>
    rw [List.nil_append, strspn, hc]
    rfl
  | cons b s ih =>
    rw [List.forall_mem_cons] at h
    rw [List.cons_append, strspn, if_pos h.1, ih h.2]
    rfl

theorem strcspn_eq {s : List U8} (hnul : 0 ∉ s) (hcolon : colon ∉ s) (rest : List U8) :
    strcspn colon (s ++ colon :: rest) = some s.length := by
  induction s with
  | nil => rw [List.nil_append, strcspn, if_pos (.inr rfl), List.length_nil]
  | cons b s ih =>
    rw [List.mem_cons, not_or] at hnul hcolon
    have hgoes : ¬ (b = 0 ∨ b = colon) := by
      rintro (h | h)
      · exact hnul.1 h.symm
      · exact hcolon.1 h.symm
    rw [List.cons_append, strcspn, if_neg hgoes, ih hnul.2 hcolon.2]
    rfl

theorem fileName_append {path : List U8} (h : path ≠ []) {b : U8} (hb : b ≠ slash) :
    fileName (path ++ [b]) = fileName path ++ [b] := by
  have htail : slash ∈ (path ++ [b]).tail ↔ slash ∈ path.tail := by
    rw [List.tail_append_of_ne_nil h, List.mem_append, List.mem_singleton]
    exact or_iff_left hb.symm
  by_cases hslash : slash ∈ path.tail
  · rw [fileName_of_mem (htail.mpr hslash), fileName_of_mem hslash, List.reverse_append]
    rw [List.reverse_singleton, List.singleton_append, List.takeWhile_cons_of_pos (by simp [hb])]
    simp
  · rw [fileName_of_notMem (htail.not.mpr hslash), fileName_of_notMem hslash]

/-- The loop stops behind the last slash. -/
theorem drop_afterSlash (path rest : List U8) :
    (path ++ rest).drop (afterSlash (path ++ rest) (path.length - 1)) = fileName path ++ rest := by
  induction path using List.reverseRecOn generalizing rest with
  | nil => rfl
  | append_singleton path b ih =>
    have hlast : (path ++ [b]).length - 1 = path.length := by simp
    have hassoc : path ++ [b] ++ rest = path ++ b :: rest := by simp
    rw [hlast, hassoc]
    cases hpath : path with
    | nil =>
      rw [List.length_nil, afterSlash]
      rfl
    | cons a init =>
      have hne : path ≠ [] := by rw [hpath]; exact List.cons_ne_nil _ _
      have hlength : path.length = (path.length - 1) + 1 := by
        rw [hpath]
        rfl
      have hat : (path ++ b :: rest)[path.length]? = some b := by simp
      rw [← hpath, hlength, afterSlash, ← hlength, hat]
      by_cases hb : b = slash
      · have hfile : fileName (path ++ [b]) = [] := by
          have hmem : slash ∈ (path ++ [b]).tail := by
            rw [List.tail_append_of_ne_nil hne, hb]
            exact List.mem_append_right _ (List.mem_singleton_self _)
          rw [fileName_of_mem hmem]
          simp [hb]
        rw [if_pos (congrArg some hb), hfile]
        have hdrop : path.length - 1 + 2 = path.length + 1 := by omega
        rw [hdrop]
        simp
      · rw [if_neg (fun h => hb (Option.some.inj h)), ih (b :: rest), fileName_append hne hb]
        simp

/-- The colon is no slash. -/
theorem drop_afterSlash_colon (path rest : List U8) :
    (path ++ colon :: rest).drop (afterSlash (path ++ colon :: rest) path.length) =
      fileName path ++ colon :: rest := by
  rw [← drop_afterSlash]
  congr 1
  cases hlength : path.length with
  | zero => rfl
  | succ n =>
    have hat : (path ++ colon :: rest)[n + 1]? = some colon := by
      rw [← hlength]
      simp
    rw [afterSlash, hat, if_neg (by decide)]
    rfl

theorem afterSlash_le (line : List U8) (p : ℕ) : afterSlash line p ≤ p + 1 := by
  induction p with
  | zero => exact Nat.zero_le 1
  | succ p ih =>
    rw [afterSlash]
    split_ifs
    · exact Nat.le_refl _
    · exact Nat.le_succ_of_le ih

theorem fold_eq_iff (m c : U8) : fold m = fold c ↔
    m = c ∨ (m = underscore ∧ c = hyphen) ∨ (m = hyphen ∧ c = underscore) := by
  have hne : underscore ≠ hyphen := by decide
  by_cases hm : m = underscore
  · by_cases hc : c = underscore
    · simp [fold, hm, hc]
    · rw [fold, fold, if_pos hm, if_neg hc]
      constructor
      · exact fun h => .inr (.inl ⟨hm, h.symm⟩)
      · rintro (h | ⟨-, h⟩ | ⟨h, -⟩)
        · exact absurd (h.symm.trans hm) hc
        · exact h.symm
        · exact absurd (hm.symm.trans h) hne
  · by_cases hc : c = underscore
    · simp [fold, hm, hc]
    · simp [fold, hm, hc]

/-- The name is compared no further than to the colon. -/
theorem compareName_eq {modname : List U8} (hname : colon ∉ modname) {file : List U8}
    (hfile : colon ∉ file) (rest : List U8) :
    compareName modname (file ++ colon :: rest) = some (decide (NameMatches modname file)) := by
  induction modname generalizing file with
  | nil =>
    cases file with
    | nil => rfl
    | cons c file => simp [compareName, NameMatches]
  | cons m modname ih =>
    rw [List.mem_cons, not_or] at hname
    have hm : m ≠ colon := Ne.symm hname.1
    cases file with
    | nil =>
      have hfold : ¬ (m = colon ∨ (m = underscore ∧ colon = hyphen) ∨
          (m = hyphen ∧ colon = underscore)) := by
        rintro (h | ⟨-, h⟩ | ⟨-, h⟩)
        · exact hm h
        · exact absurd h (by decide)
        · exact absurd h (by decide)
      simp only [compareName, List.nil_append, if_neg hm, if_neg hfold]
      simp [NameMatches]
    | cons c file =>
      rw [List.mem_cons, not_or] at hfile
      by_cases hfold : fold m = fold c
      · simp only [compareName, List.cons_append, if_neg hm, if_pos ((fold_eq_iff m c).mp hfold)]
        rw [ih hname.2 hfile.2, Option.some.injEq, decide_eq_decide]
        simp [NameMatches, hfold]
      · simp only [compareName, List.cons_append, if_neg hm,
          if_neg (fun h => hfold ((fold_eq_iff m c).mpr h))]
        simp [NameMatches, hfold]

/-! ## The loop -/

/-- The first byte of a path that is not blank, or the colon, is no number sign. -/
theorem strspn_path (path : DepPath) (rest : List U8) :
    ∃ n c, strspn blanks (path.chars ++ colon :: rest) = some n ∧
      (path.chars ++ colon :: rest)[n]? = some c ∧ c ≠ numberSign := by
  have hall : ∀ b ∈ path.chars.takeWhile blanks.contains, blanks.contains b = true :=
    fun b hb => List.mem_takeWhile_imp hb
  have hsplit := List.takeWhile_append_dropWhile (p := blanks.contains) (l := path.chars)
  cases hdrop : path.chars.dropWhile blanks.contains with
  | nil =>
    rw [hdrop, List.append_nil] at hsplit
    rw [hsplit] at hall
    refine ⟨path.chars.length, colon, strspn_eq hall (by decide) rest, ?_, by decide⟩
    simp
  | cons c tail =>
    have hc : blanks.contains c = false := by
      have hhead := List.head?_dropWhile_not blanks.contains path.chars
      rw [hdrop] at hhead
      exact hhead
    have hcomment := path.no_comment
    rw [hdrop] at hcomment hsplit
    have hline : path.chars ++ colon :: rest =
        path.chars.takeWhile blanks.contains ++ c :: (tail ++ colon :: rest) := by
      rw [← List.cons_append, ← List.append_assoc, hsplit]
    rw [hline]
    refine ⟨_, c, strspn_eq hall hc _, ?_, fun h => hcomment (congrArg some h)⟩
    simp

theorem nameMatches_entry {name : CString} (hname : colon ∉ name.chars) (path : DepPath)
    (rest after : List U8) : nameMatches name (path.chars ++ colon :: rest) after =
      some (decide (NameMatches name.chars (fileName path.chars))) := by
  have hassoc : path.chars ++ colon :: rest ++ after = path.chars ++ colon :: (rest ++ after) := by
    simp
  obtain ⟨n, c, hspan, hat, hc⟩ := strspn_path path (rest ++ after)
  have hfile : colon ∉ fileName path.chars := by
    rw [fileName]
    split_ifs
    · intro h
      have hmem := (List.takeWhile_prefix _).subset (List.mem_reverse.mp h)
      exact path.no_colon (List.mem_reverse.mp hmem)
    · exact path.no_colon
  have hstart : (path.chars ++ colon :: (rest ++ after)).drop
      (afterSlash (path.chars ++ colon :: rest) path.chars.length) =
        fileName path.chars ++ colon :: (rest ++ after) := by
    have hle := afterSlash_le (path.chars ++ colon :: rest) path.chars.length
    rw [← hassoc, List.drop_append_of_le_length, drop_afterSlash_colon, List.append_assoc,
      List.cons_append]
    rw [List.length_append, List.length_cons]
    omega
  rw [nameMatches, hassoc, hspan, Option.bind_some, hat,
    if_neg (fun h => hc (Option.some.inj h)), memchr_found path.no_colon]
  dsimp only
  rw [hstart]
  exact compareName_eq hname hfile _

theorem nameMatches_comment (name : CString) {indent : List U8}
    (hindent : ∀ b ∈ indent, blanks.contains b = true) (rest after : List U8) :
    nameMatches name (indent ++ numberSign :: rest) after = some false := by
  have hassoc : indent ++ numberSign :: rest ++ after =
      indent ++ numberSign :: (rest ++ after) := by
    simp
  have hat : (indent ++ numberSign :: (rest ++ after))[indent.length]? = some numberSign := by
    simp
  rw [nameMatches, hassoc, strspn_eq hindent (by decide), Option.bind_some, hat, if_pos rfl]

theorem text_eq_none {p : List U8} (h : 0 ∉ p) : text p = none := by
  induction p with
  | nil => rfl
  | cons b p ih =>
    rw [List.mem_cons, not_or] at h
    rw [text, if_neg (Ne.symm h.1), ih h.2, Option.map_none]

/-- A file that is found is named up to the colon. A path below the directory of the modules is
copied with all that follows it up to a NUL. -/
theorem filename_entry {modulesPath : List U8} (hpath : modulesPath ≠ []) (path : DepPath)
    (rest : List U8) :
    filename modulesPath (path.chars ++ colon :: rest) =
      if path.chars.head? = some slash ∨ 0 ∈ rest then some (fullPath modulesPath path.chars)
      else none := by
  have hspan := strcspn_eq path.no_nul path.no_colon rest
  have hhead : (path.chars ++ colon :: rest).head? = some slash ↔
      path.chars.head? = some slash := by
    cases path.chars with
    | nil => simp [colon, slash]
    | cons b chars => rfl
  simp only [filename, hspan, Option.bind_some, fullPath]
  by_cases hslash : path.chars.head? = some slash
  · rw [if_pos (hhead.mpr hslash), if_pos hslash, if_neg (not_not.mpr rfl), List.take_left,
      if_pos (.inl hslash)]
  rw [if_neg (hhead.not.mpr hslash), if_neg hslash, if_pos hpath]
  by_cases hrest : 0 ∈ rest
  · obtain ⟨before, behind, hsplit, hnul⟩ := List.eq_append_cons_of_mem hrest
    have hnul' : 0 ∉ path.chars ++ colon :: before := by
      rw [List.mem_append, List.mem_cons, not_or, not_or]
      exact ⟨path.no_nul, by decide, hnul⟩
    have htext : text (path.chars ++ colon :: rest) = some (path.chars ++ colon :: before) := by
      rw [hsplit, ← List.cons_append, ← List.append_assoc]
      exact text_terminated behind hnul'
    have htake : (modulesPath ++ slash :: (path.chars ++ colon :: before)).take
        (path.chars.length + modulesPath.length + 1) = modulesPath ++ slash :: path.chars := by
      have hlength : path.chars.length + modulesPath.length + 1 =
          (modulesPath ++ slash :: path.chars).length := by
        rw [List.length_append, List.length_cons]
        omega
      rw [hlength, ← List.cons_append, ← List.append_assoc, List.take_left]
    rw [htext, Option.map_some, htake, if_pos (.inr hrest)]
  · have hnul : 0 ∉ path.chars ++ colon :: rest := by
      rw [List.mem_append, List.mem_cons, not_or, not_or]
      exact ⟨path.no_nul, by decide, hrest⟩
    have hneither : ¬ (path.chars.head? = some slash ∨ 0 ∈ rest) := fun h => h.elim hslash hrest
    rw [text_eq_none hnul, Option.map_none, if_neg hneither]

theorem zero_notMem_depFile (lines : List DepLine) : 0 ∉ depFile lines := by
  induction lines with
  | nil => exact List.not_mem_nil
  | cons line lines ih =>
    rw [depFile, List.flatMap_cons, List.mem_append, List.mem_append, not_or, not_or]
    refine ⟨⟨?_, by decide⟩, ih⟩
    cases line with
    | entry path dependencies =>
      rw [DepLine.bytes, List.mem_append, List.mem_cons, not_or, not_or]
      exact ⟨path.no_nul, by decide, dependencies.no_nul⟩
    | comment indent isBlank words =>
      rw [DepLine.bytes, List.mem_append, List.mem_cons, not_or, not_or]
      exact ⟨fun h => absurd (isBlank _ h) (by decide), by decide, words.no_nul⟩

/-- In a file whose lines are entries and comments the loop finds the first file of the module, but
needs a NUL behind the file for a path below the directory of the modules. -/
theorem moduleFilename_depFile {modulesPath : List U8} (hpath : modulesPath ≠ []) {name : CString}
    (hname : colon ∉ name.chars) (after : List U8) (lines : List DepLine) :
    moduleFilename modulesPath name after (depFile lines) =
      (modulePath lines name).elim (some none) fun path =>
        if path.head? = some slash ∨ 0 ∈ after then some (some (fullPath modulesPath path))
        else none := by
  induction lines with
  | nil =>
    rw [depFile, List.flatMap_nil, moduleFilename, if_pos rfl]
    rfl
  | cons line lines ih =>
    have hfile : depFile (line :: lines) = line.bytes ++ newline :: depFile lines := by
      simp [depFile]
    have hne : line.bytes ++ newline :: depFile lines ≠ [] := by simp
    rw [hfile, moduleFilename, if_neg hne, modulePath, List.findSome?_cons, ← modulePath]
    cases line with
    | entry path dependencies =>
      have hline : path.chars ++ colon :: dependencies.chars ++ newline :: depFile lines =
          path.chars ++ colon :: (dependencies.chars ++ newline :: depFile lines) := by
        simp
      have hnewline : newline ∉ path.chars ++ colon :: dependencies.chars := by
        rw [List.mem_append, List.mem_cons, not_or, not_or]
        exact ⟨path.no_newline, by decide, dependencies.no_newline⟩
      rw [DepLine.bytes, nextLine_eq hnewline, ih, hline, nameMatches_entry hname,
        Option.bind_some, DepLine.pathOf]
      by_cases hmatches : NameMatches name.chars (fileName path.chars)
      · have hnul : 0 ∈ dependencies.chars ++ newline :: depFile lines ++ after ↔ 0 ∈ after := by
          rw [List.mem_append, List.mem_append, List.mem_cons]
          refine ⟨fun h => ?_, .inr⟩
          rcases h with (h | h | h) | h
          · exact absurd h dependencies.no_nul
          · exact absurd h (by decide)
          · exact absurd h (zero_notMem_depFile lines)
          · exact h
        rw [decide_eq_true hmatches, if_pos rfl, if_pos hmatches, List.append_assoc,
          List.cons_append, filename_entry hpath path]
        simp only [hnul, Option.elim_some]
        split_ifs
        · rfl
        · rfl
      · rw [decide_eq_false hmatches, if_neg (by decide), if_neg hmatches]
    | comment indent isBlank words =>
      have hline : indent ++ numberSign :: words.chars ++ newline :: depFile lines =
          indent ++ numberSign :: (words.chars ++ newline :: depFile lines) := by
        simp
      have hnewline : newline ∉ indent ++ numberSign :: words.chars := by
        rw [List.mem_append, List.mem_cons, not_or, not_or]
        refine ⟨fun h => ?_, by decide, words.no_newline⟩
        exact absurd (isBlank _ h) (by decide)
      rw [DepLine.bytes, nextLine_eq hnewline, ih, hline, nameMatches_comment name isBlank,
        Option.bind_some, if_neg (by decide), DepLine.pathOf]

theorem zero_mem_mappingRest_iff (length : ℕ) :
    0 ∈ mappingRest length ↔ length % hostPageSize ≠ 0 := by
  have hpos : 0 < hostPageSize := by decide
  have hlt := Nat.mod_lt length hpos
  rw [mappingRest, List.mem_replicate, and_iff_left rfl]
  constructor
  · intro h hzero
    rw [hzero, Nat.sub_zero, Nat.mod_self] at h
    exact h rfl
  · intro h
    rw [Nat.mod_eq_of_lt (by omega)]
    omega

/-- The file of a module is read that the first line with the module's name has. When `modules.dep`
fills its last page and the path is below the directory of the modules, a byte is read past the
mapping. -/
theorem mmapKernelModuleFile_eq {readFile : List U8 → Option (List U8)} {release : List U8}
    {name : CString} (hname : colon ∉ name.chars) (lines : List DepLine)
    (hread : readFile (getModulesPath release ++ slash :: modulesDep) = some (depFile lines)) :
    mmapKernelModuleFile readFile release name =
      (modulePath lines name).elim (some none) fun path =>
        if path.head? = some slash ∨ (depFile lines).length % hostPageSize ≠ 0 then
          some (readFile (fullPath (getModulesPath release) path))
        else none := by
  have hpath : getModulesPath release ≠ [] := by simp [getModulesPath]
  simp only [mmapKernelModuleFile, hread]
  rw [moduleFilename_depFile hpath hname]
  cases modulePath lines name with
  | none => rfl
  | some path =>
    simp only [zero_mem_mappingRest_iff, Option.elim_some]
    split_ifs
    · rfl
    · rfl

/-- `"haxm"`. -/
def haxm : CString := ⟨[0x68, 0x61, 0x78, 0x6D], by decide⟩

end ModuleFiles

end Virt86
