import Virt86.ElfByteOrders
import Virt86.ModuleFiles
import Virt86.ModuleInfo
import Virt86.Versions

/-!
# The version of HAXM on Linux

`GetVersion` looks up the file of the kernel module, takes the parameter `version` out of its
`.modinfo` section and reads three decimal numbers from it.
-/

namespace Virt86

namespace Haxm

open CStrings ModuleFiles

/-! ## Decimal numbers -/

/-- The decimal digits of a number. -/
def decimal (n : ℕ) : List U8 := (Nat.toDigits 10 n).map fun c => BitVec.ofNat 8 c.toNat

def isSpace (b : U8) : Bool := b = 0x20 || (0x09 ≤ b && b ≤ 0x0D)

def isDigit (b : U8) : Bool := 0x30 ≤ b && b ≤ 0x39

def digitsValue (digits : List U8) : ℕ :=
  digits.foldl (fun value b => 10 * value + (b.toNat - 0x30)) 0

/-- Whether there is a minus sign, and what follows the sign. -/
def sign : List U8 → Bool × List U8
  | [] => (false, [])
  | b :: s => if b = 0x2D then (true, s) else if b = 0x2B then (false, s) else (false, b :: s)

def LONG_MIN : ℤ := -2 ^ 63
def LONG_MAX : ℤ := 2 ^ 63 - 1

/-- `strtol` with base 10: the number and `*endptr`, in a string whose NUL is left out. -/
def strtol (s : List U8) : ℤ × List U8 :=
  let signed := sign (s.dropWhile isSpace)
  let digits := signed.2.takeWhile isDigit
  if digits = [] then (0, s)
  else
    let value : ℤ := digitsValue digits
    (max LONG_MIN (min LONG_MAX (if signed.1 then -value else value)),
      signed.2.dropWhile isDigit)

/-- The three calls of `strtol`. The byte that is skipped between two of them is the NUL when the
string is over, and `none` is the read behind it. -/
def parseVersion (unset : U16) (ver : List U8) : Option HaxmVersion :=
  let major := strtol ver
  if major.2 = [] then none
  else
    let minor := strtol major.2.tail
    if minor.2 = [] then none
    else
      let build := strtol minor.2.tail
      some ⟨BitVec.ofInt 16 major.1, BitVec.ofInt 16 minor.1, BitVec.ofInt 16 build.1, unset⟩

/-- `".modinfo"`. -/
def modinfo : CString := ⟨[0x2E, 0x6D, 0x6F, 0x64, 0x69, 0x6E, 0x66, 0x6F], by decide⟩

/-- `"version"`. -/
def versionParam : CString := ⟨[0x76, 0x65, 0x72, 0x73, 0x69, 0x6F, 0x6E], by decide⟩

/-- What `GetVersion` does with the file of the module, with what is in the bits of the version that
its constructor leaves. `none` is a read outside the file or a string. -/
def versionOfModule (unset : U16) (bytes : List U8) : Option HaxmVersion :=
  if h : bytes.length < 2 ^ 64 then
    (ElfFile.sectionData ⟨bytes, h⟩ modinfo).bind fun
      | none => some ⟨0, 0, 0, unset⟩
      | some data =>
        (getModInfoParam versionParam ((bytes.drop data.offset).take data.size)).bind fun
          | none => some ⟨0, 0, 0, unset⟩
          | some ver => parseVersion unset ver
  else none

/-- `HaxmPlatformSysImpl::GetVersion`, by the files that can be read. When there is no file of the
module a null pointer is read. -/
def getVersion (readFile : List U8 → Option (List U8)) (release : List U8) (unset : U16) :
    Option HaxmVersion :=
  (mmapKernelModuleFile readFile release haxm).bind fun found =>
    found.bind (versionOfModule unset)

/-! ## Reading numbers -/

theorem bounds_of_isDigit {c : Char} (h : c.isDigit = true) : 0x30 ≤ c.toNat ∧ c.toNat ≤ 0x39 := by
  rw [Char.isDigit, Bool.and_eq_true, decide_eq_true_iff, decide_eq_true_iff] at h
  exact h

theorem isDigit_of_mem_toDigits {n : ℕ} {c : Char} (h : c ∈ Nat.toDigits 10 n) :
    0x30 ≤ c.toNat ∧ c.toNat ≤ 0x39 :=
  bounds_of_isDigit (Nat.isDigit_of_mem_toDigits (by decide) (Nat.le_refl 10) h)

theorem isDigit_of_mem_decimal {n : ℕ} {b : U8} (h : b ∈ decimal n) : isDigit b = true := by
  obtain ⟨c, hc, rfl⟩ := List.mem_map.mp h
  obtain ⟨hlow, hhigh⟩ := isDigit_of_mem_toDigits hc
  rw [isDigit, Bool.and_eq_true, decide_eq_true_iff, decide_eq_true_iff, BitVec.le_def,
    BitVec.le_def, BitVec.toNat_ofNat, Nat.mod_eq_of_lt (by omega)]
  exact ⟨hlow, hhigh⟩

theorem decimal_ne_nil (n : ℕ) : decimal n ≠ [] := by
  rw [decimal, ne_eq, List.map_eq_nil_iff]
  exact Nat.toDigits_ne_nil

theorem digitsValue_decimal (n : ℕ) : digitsValue (decimal n) = n := by
  have hfold : ∀ cs : List Char, (∀ c ∈ cs, c.toNat ≤ 0x39) → ∀ value : ℕ,
      (cs.map fun c => BitVec.ofNat 8 c.toNat).foldl
        (fun value b => 10 * value + (b.toNat - 0x30)) value = Nat.ofDigitChars 10 cs value := by
    intro cs
    induction cs with
    | nil => exact fun _ _ => rfl
    | cons c cs ih =>
      intro h value
      rw [List.forall_mem_cons] at h
      rw [List.map_cons, List.foldl_cons, Nat.ofDigitChars_cons, ih h.2, BitVec.toNat_ofNat,
        Nat.mod_eq_of_lt (by omega)]
      rfl
  rw [digitsValue, decimal, hfold _ fun c hc => (isDigit_of_mem_toDigits hc).2]
  exact Nat.ofDigitChars_ten_toDigits

theorem isSpace_of_isDigit : ∀ b : U8, isDigit b = true →
    isSpace b = false ∧ b ≠ 0x2D ∧ b ≠ 0x2B := by
  decide

/-- A number in front of what is no digit is read. -/
theorem strtol_decimal {n : ℕ} (hn : n < 2 ^ 63) {rest : List U8}
    (hrest : ∀ b ∈ rest.head?, isDigit b = false) :
    strtol (decimal n ++ rest) = ((n : ℤ), rest) := by
  have hdigits : ∀ b ∈ decimal n, isDigit b = true := fun b hb => isDigit_of_mem_decimal hb
  have hsigned : sign ((decimal n ++ rest).dropWhile isSpace) = (false, decimal n ++ rest) := by
    cases hdecimal : decimal n with
    | nil => exact absurd hdecimal (decimal_ne_nil n)
    | cons b digits =>
      rw [hdecimal] at hdigits
      obtain ⟨hspace, hminus, hplus⟩ := isSpace_of_isDigit b (hdigits b List.mem_cons_self)
      rw [List.cons_append, List.dropWhile_cons_of_neg (by simp [hspace]), sign, if_neg hminus,
        if_neg hplus]
  have htake : (decimal n ++ rest).takeWhile isDigit = decimal n := by
    rw [List.takeWhile_append_of_pos hdigits]
    cases rest with
    | nil => simp
    | cons b rest => simp [hrest b rfl]
  have hdrop : (decimal n ++ rest).dropWhile isDigit = rest := by
    rw [List.dropWhile_append_of_pos hdigits]
    cases rest with
    | nil => rfl
    | cons b rest => simp [hrest b rfl]
  have hvalue : max LONG_MIN (min LONG_MAX (n : ℤ)) = n := by
    rw [LONG_MIN, LONG_MAX]
    omega
  simp only [strtol, hsigned]
  rw [htake, hdrop, if_neg (decimal_ne_nil n), digitsValue_decimal, if_neg (by decide), hvalue]

/-- The text of a version. -/
def versionText (major minor build : U16) : List U8 :=
  decimal major.toNat ++ dot :: (decimal minor.toNat ++ dot :: decimal build.toNat)

/-- A version is read back from its text, whatever follows it but a digit. -/
theorem parseVersion_versionText (unset major minor build : U16) {rest : List U8}
    (hrest : ∀ b ∈ rest.head?, isDigit b = false) :
    parseVersion unset (versionText major minor build ++ rest) =
      some ⟨major, minor, build, unset⟩ := by
  have hdot : ∀ s : List U8, ∀ b ∈ (dot :: s).head?, isDigit b = false := by
    intro s b hb
    obtain rfl := Option.some.inj hb
    rfl
  have hlt : ∀ v : U16, v.toNat < 2 ^ 63 := fun v => Nat.lt_trans v.isLt (by decide)
  have hback : ∀ v : U16, BitVec.ofInt 16 (v.toNat : ℤ) = v := fun v => by simp
  have htext : versionText major minor build ++ rest = decimal major.toNat ++
      dot :: (decimal minor.toNat ++ dot :: (decimal build.toNat ++ rest)) := by
    simp [versionText]
  simp only [parseVersion]
  rw [htext, strtol_decimal (hlt major) (hdot _), if_neg (List.cons_ne_nil _ _), List.tail_cons,
    strtol_decimal (hlt minor) (hdot _), if_neg (List.cons_ne_nil _ _), List.tail_cons,
    strtol_decimal (hlt build) hrest, hback, hback, hback]

/-! ## From the files to the version -/

/-- `modules.dep` leads to the file of the module. -/
structure Installed (readFile : List U8 → Option (List U8)) (release : List U8)
    (lines : List DepLine) (path : List U8) (file : ElfFile) : Prop where
  dep : readFile (getModulesPath release ++ slash :: modulesDep) = some (depFile lines)
  found : modulePath lines haxm = some path
  read : readFile (fullPath (getModulesPath release) path) = some file.bytes

/-- The file is an ELF file whose first section of the name `.modinfo` has these strings. -/
structure HasModinfo (file : ElfFile) (image : ElfImage) (order : ByteOrder)
    (strings : List (ℕ × CString)) (trailing : ℕ) : Prop where
  encodes : image.Encodes order file
  product : image.shstrndx * image.shentsize < 2 ^ 31
  bound : file.field .little image.elfClass.e_shnum 2 = image.sections.length
  found : ∃ data, image.sections.findSome? (·.dataFor modinfo) = some data ∧
    (file.bytes.drop data.offset).take data.size = modinfoSection strings trailing

/-- The value of a parameter is that of the first string that has one. -/
theorem getModInfoParam_first {param string : CString} {value : List U8}
    (hvalue : paramValue param string = some value) {before : List (ℕ × CString)}
    (hbefore : ∀ s ∈ before, paramValue param s.2 = none) (count : ℕ)
    (behind : List (ℕ × CString)) (trailing : ℕ) :
    getModInfoParam param (modinfoSection (before ++ (count, string) :: behind) trailing) =
      some (some value) := by
  induction before with
  | nil =>
    have hsection : modinfoSection ((count, string) :: behind) trailing =
        List.replicate count 0 ++ (string.buffer ++ modinfoSection behind trailing) := by
      simp [modinfoSection]
    rw [List.nil_append, hsection, getModInfoParam_padding]
    exact getModInfoParam_of_some hvalue _
  | cons s before ih =>
    rw [List.forall_mem_cons] at hbefore
    have hsection : modinfoSection (s :: before ++ (count, string) :: behind) trailing =
        List.replicate s.1 0 ++
          (s.2.buffer ++ modinfoSection (before ++ (count, string) :: behind) trailing) := by
      simp [modinfoSection]
    rw [hsection, getModInfoParam_padding, getModInfoParam_of_none hbefore.1, ih hbefore.2]

/-- `"version=7.6.1"`. -/
def versionString : CString :=
  ⟨versionParam.chars ++ equalsSign :: versionText 7 6 1, by decide⟩

/-- The only section is the string table too, so that the first string in it is its name. -/
def moduleImage : ElfImage := ⟨.elf32, 52, 40, 0, [⟨modinfo, 92, 23⟩]⟩

def moduleFile : ElfFile where
  bytes := ELFMAG ++ [1, 1, 1] ++ List.replicate 25 0 ++ [52, 0, 0, 0] ++ List.replicate 10 0 ++
    [40, 0, 1, 0, 0, 0] ++ List.replicate 16 0 ++ [92, 0, 0, 0, 23, 0, 0, 0] ++
    List.replicate 16 0 ++ modinfo.buffer ++ versionString.buffer
  length_lt := by decide

theorem hasModinfo_moduleFile : HasModinfo moduleFile moduleImage .little
    ([(0, modinfo)] ++ (0, versionString) :: []) 0 where
  encodes :=
    { ident := ⟨rfl, rfl, rfl⟩
      header_inside := by decide
      shoff := rfl
      shentsize := rfl
      shnum := rfl
      shstrndx := rfl
      strings_inside := by decide
      sections := by
        rintro (_ | i) s hs
        · obtain rfl := Option.some.inj hs
          exact ⟨by decide, by decide, by decide, by decide, rfl, rfl⟩
        · cases hs }
  product := by decide
  bound := rfl
  found := ⟨_, rfl, by decide⟩

end Haxm

end Virt86
