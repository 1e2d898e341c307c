import Virt86.CStrings
import Virt86.Searches

/-!
# ELF files

`Elf` copies a file and follows the offsets that it finds there. Pointers into the copy are offsets
from `m_data`, and the copy ends where the file does.
-/

namespace Virt86

open BitSlices CStrings Searches

structure ElfFile where
  bytes : List U8
  length_lt : bytes.length < 2 ^ 64

/-- `native_endianness` of a little-endian host. -/
def nativeEndianness : ℤ := ((BitVec.ofNat 32 (littleEndian [1, 0, 0, 2])).setWidth 8).toInt

/-- `endianSwap` of the bytes of a field. -/
def endianSwap (data : List U8) (swap : Bool) : List U8 := if swap then data.reverse else data

namespace ElfFile

variable (file : ElfFile)

/-- So many bytes from an offset on are bytes of the file. -/
def Inside (offset : U64) (size : ℕ) : Prop := offset.toNat + size ≤ file.bytes.length

instance (offset : U64) (size : ℕ) : Decidable (file.Inside offset size) :=
  inferInstanceAs (Decidable (_ ≤ _))

/-- The bytes that a pointer points to. -/
def rest (offset : U64) : List U8 := file.bytes.drop offset.toNat

def number (swap : Bool) (offset : U64) (size : ℕ) : ℕ :=
  littleEndian (endianSwap ((file.rest offset).take size) swap)

/-- A field loaded through a pointer and swapped. `none` is a read that leaves the file. -/
def read (swap : Bool) (offset : U64) (size : ℕ) : Option ℕ :=
  if file.Inside offset size then some (file.number swap offset size) else none

end ElfFile

inductive ElfClass where
  | elf32
  | elf64
  deriving DecidableEq, Repr

namespace ElfClass

/-- `ELFCLASS32` and `ELFCLASS64`. -/
def ident : ElfClass → U8
  | elf32 => 1
  | elf64 => 2

/-- The bytes of an offset or a size. -/
def word : ElfClass → ℕ
  | elf32 => 4
  | elf64 => 8

/-! The places of fields in the headers. `sh_name` comes first in its header. -/

def e_shoff : ElfClass → ℕ
  | elf32 => 32
  | elf64 => 40

def e_shentsize : ElfClass → ℕ
  | elf32 => 46
  | elf64 => 58

def e_shnum : ElfClass → ℕ
  | elf32 => 48
  | elf64 => 60

def e_shstrndx : ElfClass → ℕ
  | elf32 => 50
  | elf64 => 62

def sh_offset : ElfClass → ℕ
  | elf32 => 16
  | elf64 => 24

def sh_size : ElfClass → ℕ
  | elf32 => 20
  | elf64 => 32

end ElfClass

/-- `Elf`, and the class derived from it. -/
structure Elf where
  file : ElfFile
  elfClass : ElfClass
  swapEndianness : Bool

/-- With the string table, which the constructors of `Elf32` and `Elf64` look up. -/
structure LoadedElf extends Elf where
  stringTable : U64

/-- What `GetSectionData` returns: a pointer, as an offset, and the size. -/
structure SectionData where
  offset : ℕ
  size : ℕ
  deriving DecidableEq, Repr

namespace Elf

variable (elf : Elf)

def enSwap (offset : U64) (size : ℕ) : Option ℕ := elf.file.read elf.swapEndianness offset size

/-- A field of `m_header`, swapped. -/
def header (field size : ℕ) : Option ℕ := elf.enSwap (BitVec.ofNat 64 field) size

/-- The constructors. `none` is a read outside the file or a product of `int`s that overflows. -/
def construct : Option LoadedElf := do
  let shoff ← elf.header elf.elfClass.e_shoff elf.elfClass.word
  let shstrndx ← elf.header elf.elfClass.e_shstrndx 2
  let shentsize ← elf.header elf.elfClass.e_shentsize 2
  let product ← if shstrndx * shentsize < 2 ^ 31 then some (shstrndx * shentsize) else none
  let stringTableHeader := BitVec.ofNat 64 shoff + BitVec.ofNat 64 product
  let offset ← elf.enSwap (stringTableHeader + BitVec.ofNat 64 elf.elfClass.sh_offset)
    elf.elfClass.word
  return ⟨elf, BitVec.ofNat 64 offset⟩

def getSection (index : U32) : Option U64 := do
  let shoff ← elf.header elf.elfClass.e_shoff elf.elfClass.word
  let shentsize ← elf.header elf.elfClass.e_shentsize 2
  return BitVec.ofNat 64 shoff + (index * BitVec.ofNat 32 shentsize).setWidth 64

/-- `*size` and what is returned with it. -/
def sectionData (sectionHeader : U64) : Option SectionData := do
  let size ← elf.enSwap (sectionHeader + BitVec.ofNat 64 elf.elfClass.sh_size) elf.elfClass.word
  let offset ← elf.enSwap (sectionHeader + BitVec.ofNat 64 elf.elfClass.sh_offset) elf.elfClass.word
  return ⟨offset, size⟩

end Elf

namespace LoadedElf

variable (elf : LoadedElf) (sectionName : CString)

/-- A pass of the loop in `GetSectionData`. -/
def lookAt (i : ℕ) : Option (Option SectionData) := do
  let sectionHeader ← elf.getSection (BitVec.ofNat 32 i)
  let name ← elf.enSwap sectionHeader 4
  let same ← strcmp (elf.file.rest (elf.stringTable + BitVec.ofNat 64 name)) sectionName.buffer
  if same then some <$> elf.sectionData sectionHeader else return none

/-- `m_header->e_shnum`, which the loop compares with as it is in the file. -/
def shnum : Option ℕ := elf.file.read false (BitVec.ofNat 64 elf.elfClass.e_shnum) 2

def getSectionData : Option (Option SectionData) := do
  let shnum ← elf.shnum
  (List.range shnum).findSomeM? (elf.lookAt sectionName)

end LoadedElf

def EI_CLASS : ℕ := 4
def EI_DATA : ℕ := 5

/-- `"\177ELF"`. -/
def ELFMAG : List U8 := [0x7F, 0x45, 0x4C, 0x46]

/-- `Elf::Load`. A `char` is signed. -/
def Elf.load (file : ElfFile) : Option (Option LoadedElf) :=
  if file.bytes.length < EI_CLASS then some none
  else if file.bytes.take 4 ≠ ELFMAG then some none
  else do
    let data ← file.bytes[EI_DATA]?
    if data = 0 ∨ data.toInt > 2 then return none
    else do
      let enSwap := decide (nativeEndianness ≠ data.toInt)
      let elfClass ← file.bytes[EI_CLASS]?
      if elfClass = ElfClass.elf32.ident then some <$> Elf.construct ⟨file, .elf32, enSwap⟩
      else if elfClass = ElfClass.elf64.ident then some <$> Elf.construct ⟨file, .elf64, enSwap⟩
      else return none

/-- A file is loaded and asked for a section. -/
def ElfFile.sectionData (file : ElfFile) (sectionName : CString) : Option (Option SectionData) := do
  let elf ← Elf.load file
  elf.elim (some none) fun elf => elf.getSectionData sectionName

theorem ElfFile.inside_ofNat (file : ElfFile) {place size : ℕ}
    (h : place + size ≤ file.bytes.length) : file.Inside (BitVec.ofNat 64 place) size := by
  have hlength := file.length_lt
  rw [Inside, BitVec.toNat_ofNat, Nat.mod_eq_of_lt (by omega)]
  exact h

theorem ElfFile.number_half_lt (file : ElfFile) (swap : Bool) (offset : U64) :
    file.number swap offset 2 < 2 ^ 16 := by
  have hlength : (endianSwap ((file.rest offset).take 2) swap).length ≤ 2 := by
    rw [endianSwap]
    split_ifs
    · rw [List.length_reverse]
      exact List.length_take_le 2 _
    · exact List.length_take_le 2 _
  calc file.number swap offset 2 < 256 ^ _ := littleEndian_lt _
    _ ≤ 256 ^ 2 := Nat.pow_le_pow_right (by decide) hlength

/-! ## What the offsets mean -/

namespace Elf

variable (elf : Elf) (sectionName : CString)

def value (offset : U64) (size : ℕ) : ℕ := elf.file.number elf.swapEndianness offset size

def headerValue (field size : ℕ) : ℕ := elf.value (BitVec.ofNat 64 field) size

def sectionHeader (index : ℕ) : U64 :=
  BitVec.ofNat 64 (elf.headerValue elf.elfClass.e_shoff elf.elfClass.word +
    index * elf.headerValue elf.elfClass.e_shentsize 2)

/-- The place of a field of a section header. -/
def sectionField (index field : ℕ) : U64 := elf.sectionHeader index + BitVec.ofNat 64 field

def sectionOffset (index : ℕ) : ℕ :=
  elf.value (elf.sectionField index elf.elfClass.sh_offset) elf.elfClass.word

def sectionSize (index : ℕ) : ℕ :=
  elf.value (elf.sectionField index elf.elfClass.sh_size) elf.elfClass.word

def shstrndx : ℕ := elf.headerValue elf.elfClass.e_shstrndx 2

def stringTable : U64 := BitVec.ofNat 64 (elf.sectionOffset elf.shstrndx)

/-- What the constructors build. -/
def loaded : LoadedElf := ⟨elf, elf.stringTable⟩

/-- The rest of the file from the name of a section on. -/
def nameAt (index : ℕ) : List U8 :=
  elf.file.rest (elf.stringTable + BitVec.ofNat 64 (elf.value (elf.sectionHeader index) 4))

def HasName (index : ℕ) : Prop := sectionName.buffer <+: elf.nameAt index

/-- The header ends with `e_shstrndx`. -/
def HeaderInside : Prop := elf.elfClass.e_shstrndx + 2 ≤ elf.file.bytes.length

def FieldInside (index field : ℕ) : Prop :=
  elf.file.Inside (elf.sectionField index field) elf.elfClass.word

/-- What a pass of the loop reads is inside the file: the name as far as it is compared and, if it
is the one that is looked for, the section. -/
structure SectionInside (index : ℕ) : Prop where
  header : elf.file.Inside (elf.sectionHeader index) 4
  name : ¬ elf.nameAt index <+: sectionName.chars
  data : elf.HasName sectionName index → elf.FieldInside index elf.elfClass.sh_size ∧
    elf.FieldInside index elf.elfClass.sh_offset ∧
    elf.sectionOffset index + elf.sectionSize index ≤ elf.file.bytes.length

/-- `e_shnum` without the swap. -/
def scanBound : ℕ := elf.file.number false (BitVec.ofNat 64 elf.elfClass.e_shnum) 2

/-- The checks that the reader leaves out. -/
structure Checked : Prop where
  header : elf.HeaderInside
  product : elf.shstrndx * elf.headerValue elf.elfClass.e_shentsize 2 < 2 ^ 31
  stringTable : elf.FieldInside elf.shstrndx elf.elfClass.sh_offset
  sections : ∀ i < elf.scanBound, (∀ j < i, ¬ elf.HasName sectionName j) →
    elf.SectionInside sectionName i

variable {elf} {sectionName}

theorem enSwap_of_inside {offset : U64} {size : ℕ} (h : elf.file.Inside offset size) :
    elf.enSwap offset size = some (elf.value offset size) := if_pos h

theorem inside_of_enSwap {offset : U64} {size v : ℕ} (h : elf.enSwap offset size = some v) :
    elf.file.Inside offset size := (Option.ite_none_right_eq_some.mp h).1

private theorem inside_headerField (hheader : elf.HeaderInside) {field size : ℕ}
    (hfield : field + size ≤ elf.elfClass.e_shstrndx + 2) :
    elf.file.Inside (BitVec.ofNat 64 field) size :=
  elf.file.inside_ofNat (Nat.le_trans hfield hheader)

theorem header_eq (hheader : elf.HeaderInside) {field size : ℕ}
    (hfield : field + size ≤ elf.elfClass.e_shstrndx + 2) :
    elf.header field size = some (elf.headerValue field size) :=
  enSwap_of_inside (inside_headerField hheader hfield)

theorem shoff_le (c : ElfClass) : c.e_shoff + c.word ≤ c.e_shstrndx + 2 := by
  cases c <;> decide

theorem shentsize_le (c : ElfClass) : c.e_shentsize + 2 ≤ c.e_shstrndx + 2 := by
  cases c <;> decide

theorem shnum_le (c : ElfClass) : c.e_shnum + 2 ≤ c.e_shstrndx + 2 := by
  cases c <;> decide

/-- The constructors read the whole header. -/
theorem headerInside_of_construct {loaded : LoadedElf} (h : elf.construct = some loaded) :
    elf.HeaderInside := by
  obtain ⟨_, -, h⟩ := Option.bind_eq_some_iff.mp h
  obtain ⟨_, hshstrndx, -⟩ := Option.bind_eq_some_iff.mp h
  have hinside := inside_of_enSwap hshstrndx
  rw [ElfFile.Inside, BitVec.toNat_ofNat, Nat.mod_eq_of_lt] at hinside
  · exact hinside
  · cases elf.elfClass <;> decide

theorem construct_of_header (hheader : elf.HeaderInside)
    (hproduct : elf.shstrndx * elf.headerValue elf.elfClass.e_shentsize 2 < 2 ^ 31)
    (htable : elf.FieldInside elf.shstrndx elf.elfClass.sh_offset) :
    elf.construct = some elf.loaded := by
  rw [construct, header_eq hheader (shoff_le _), header_eq hheader (Nat.le_refl _),
    header_eq hheader (shentsize_le _)]
  rw [FieldInside, sectionField, sectionHeader] at htable
  simp only [Option.bind_eq_bind, Option.bind_some]
  rw [← shstrndx, if_pos hproduct, ← BitVec.ofNat_add, enSwap_of_inside htable]
  rfl

theorem checked_of_construct {loaded : LoadedElf} (h : elf.construct = some loaded) :
    elf.HeaderInside ∧ elf.shstrndx * elf.headerValue elf.elfClass.e_shentsize 2 < 2 ^ 31 ∧
      elf.FieldInside elf.shstrndx elf.elfClass.sh_offset := by
  have hheader := headerInside_of_construct h
  rw [construct, header_eq hheader (shoff_le _), header_eq hheader (Nat.le_refl _),
    header_eq hheader (shentsize_le _)] at h
  simp only [Option.bind_eq_bind, Option.bind_some, Option.bind_none] at h
  rw [← shstrndx, Option.ite_none_right_eq_some, ← BitVec.ofNat_add] at h
  obtain ⟨hproduct, h⟩ := h
  obtain ⟨_, htable, -⟩ := Option.bind_eq_some_iff.mp h
  exact ⟨hheader, hproduct, inside_of_enSwap htable⟩

/-- The product of the index and the size of an entry fits in 32 bits. -/
theorem getSection_eq (hheader : elf.HeaderInside) {i : ℕ} (hi : i < 2 ^ 16) :
    elf.getSection (BitVec.ofNat 32 i) = some (elf.sectionHeader i) := by
  have hproduct : i * elf.headerValue elf.elfClass.e_shentsize 2 < 2 ^ 16 * 2 ^ 16 :=
    Nat.mul_lt_mul'' hi (elf.file.number_half_lt _ _)
  rw [getSection, header_eq hheader (shoff_le _), header_eq hheader (shentsize_le _)]
  simp only [Option.bind_eq_bind, Option.bind_some]
  rw [← BitVec.ofNat_mul, BitVec.setWidth_ofNat_of_le_of_lt (by decide) hproduct, sectionHeader,
    BitVec.ofNat_add]
  rfl

theorem sectionData_of_inside {i : ℕ} (hsize : elf.FieldInside i elf.elfClass.sh_size)
    (hoffset : elf.FieldInside i elf.elfClass.sh_offset) :
    elf.sectionData (elf.sectionHeader i) = some ⟨elf.sectionOffset i, elf.sectionSize i⟩ := by
  rw [sectionData, ← sectionField, ← sectionField, enSwap_of_inside hsize,
    enSwap_of_inside hoffset]
  rfl

theorem inside_of_sectionData {i : ℕ} {data : SectionData}
    (h : elf.sectionData (elf.sectionHeader i) = some data) :
    elf.FieldInside i elf.elfClass.sh_size ∧ elf.FieldInside i elf.elfClass.sh_offset := by
  obtain ⟨_, hsize, h⟩ := Option.bind_eq_some_iff.mp h
  obtain ⟨_, hoffset, -⟩ := Option.bind_eq_some_iff.mp h
  exact ⟨inside_of_enSwap hsize, inside_of_enSwap hoffset⟩

theorem loaded_lookAt (hheader : elf.HeaderInside) {i : ℕ} (hi : i < 2 ^ 16) :
    elf.loaded.lookAt sectionName i =
      (elf.enSwap (elf.sectionHeader i) 4).bind fun _ =>
        (strcmp (elf.nameAt i) sectionName.buffer).bind fun same =>
          if same then some <$> elf.sectionData (elf.sectionHeader i) else some none := by
  rw [LoadedElf.lookAt, loaded, getSection_eq hheader hi]
  simp only [Option.bind_eq_bind, Option.bind_some]
  by_cases hinside : elf.file.Inside (elf.sectionHeader i) 4
  · rw [enSwap_of_inside hinside]
    rfl
  · rw [enSwap, ElfFile.read, if_neg hinside]
    rfl

/-- The loop goes on only past sections with other names, and stops only at one with the name. -/
theorem isSome_of_lookAt (hheader : elf.HeaderInside) {i : ℕ} (hi : i < 2 ^ 16)
    {found : Option SectionData} (h : elf.loaded.lookAt sectionName i = some found) :
    found.isSome ↔ elf.HasName sectionName i := by
  rw [loaded_lookAt hheader hi] at h
  obtain ⟨_, -, h⟩ := Option.bind_eq_some_iff.mp h
  obtain ⟨same, hsame, h⟩ := Option.bind_eq_some_iff.mp h
  cases same with
  | false =>
    have hname : ¬ elf.HasName sectionName i := by
      intro hname
      rw [(strcmp_eq_true_iff _ _).mpr hname] at hsame
      cases hsame
    cases h
    exact iff_of_false (by decide) hname
  | true =>
    obtain ⟨data, -, rfl⟩ := Option.map_eq_some_iff.mp h
    exact iff_of_true rfl ((strcmp_eq_true_iff _ _).mp hsame)

theorem lookAt_of_sectionInside (hheader : elf.HeaderInside) {i : ℕ} (hi : i < 2 ^ 16)
    (h : elf.SectionInside sectionName i) : ∃ found,
    elf.loaded.lookAt sectionName i = some found ∧
      ∀ data, found = some data → data.offset + data.size ≤ elf.file.bytes.length := by
  rw [loaded_lookAt hheader hi, enSwap_of_inside h.header, Option.bind_some]
  cases hsame : strcmp (elf.nameAt i) sectionName.buffer with
  | none => exact absurd ((strcmp_eq_none_iff _ _).mp hsame) h.name
  | some same =>
    cases same with
    | false => exact ⟨none, rfl, fun data h => by cases h⟩
    | true =>
      obtain ⟨hsize, hoffset, hrange⟩ := h.data ((strcmp_eq_true_iff _ _).mp hsame)
      rw [Option.bind_some, if_pos rfl, sectionData_of_inside hsize hoffset]
      refine ⟨_, rfl, ?_⟩
      rintro data ⟨⟩
      exact hrange

theorem sectionInside_of_lookAt (hheader : elf.HeaderInside) {i : ℕ} (hi : i < 2 ^ 16)
    {found : Option SectionData} (h : elf.loaded.lookAt sectionName i = some found)
    (hrange : ∀ data, found = some data → data.offset + data.size ≤ elf.file.bytes.length) :
    elf.SectionInside sectionName i := by
  rw [loaded_lookAt hheader hi] at h
  obtain ⟨_, hname, h⟩ := Option.bind_eq_some_iff.mp h
  obtain ⟨same, hsame, h⟩ := Option.bind_eq_some_iff.mp h
  refine ⟨inside_of_enSwap hname, fun hend => ?_, fun hhas => ?_⟩
  · rw [(strcmp_eq_none_iff _ _).mpr hend] at hsame
    cases hsame
  · rw [(strcmp_eq_true_iff _ _).mpr hhas] at hsame
    rw [← Option.some.inj hsame, if_pos rfl] at h
    obtain ⟨data, hdata, rfl⟩ := Option.map_eq_some_iff.mp h
    obtain ⟨hsize, hoffset⟩ := inside_of_sectionData hdata
    have hle := hrange data rfl
    rw [sectionData_of_inside hsize hoffset] at hdata
    rw [← Option.some.inj hdata] at hle
    exact ⟨hsize, hoffset, hle⟩

theorem scanBound_lt : elf.scanBound < 2 ^ 16 := elf.file.number_half_lt _ _

theorem loaded_shnum (hheader : elf.HeaderInside) : elf.loaded.shnum = some elf.scanBound :=
  if_pos (inside_headerField hheader (shnum_le _))

theorem loaded_getSectionData (hheader : elf.HeaderInside) :
    elf.loaded.getSectionData sectionName =
      (List.range elf.scanBound).findSomeM? (elf.loaded.lookAt sectionName) := by
  rw [LoadedElf.getSectionData, loaded_shnum hheader]
  rfl

/-- A search that does not fail goes on past the sections before the first one with the name. -/
theorem lookAt_of_not_hasName (hheader : elf.HeaderInside) {found : Option SectionData}
    (h : (List.range elf.scanBound).findSomeM? (elf.loaded.lookAt sectionName) = some found)
    {i : ℕ} (hi : i < elf.scanBound) (hnames : ∀ j < i, ¬ elf.HasName sectionName j) :
    ∀ j < i, elf.loaded.lookAt sectionName j = some none := by
  intro j
  induction j using Nat.strongRecOn with
  | ind j ih =>
    intro hj
    have hjn : j < elf.scanBound := Nat.lt_trans hj hi
    have hbefore : ∀ k < j, elf.loaded.lookAt sectionName k = some none := fun k hk =>
      ih k hk (Nat.lt_trans hk hj)
    rw [findSomeM?_range_of_forall_lt hjn hbefore, List.findSomeM?_cons] at h
    obtain ⟨look, hlook, -⟩ := Option.bind_eq_some_iff.mp h
    have hsome := isSome_of_lookAt hheader (Nat.lt_trans hjn scanBound_lt) hlook
    rw [hlook, Option.not_isSome_iff_eq_none.mp fun hfound => hnames j hj (hsome.mp hfound)]

/-- The loop stays inside the file, with what it returns, if and only if each of its passes does. -/
theorem getSectionData_inside_iff (hheader : elf.HeaderInside) :
    (∀ i < elf.scanBound, (∀ j < i, ¬ elf.HasName sectionName j) →
      elf.SectionInside sectionName i) ↔
    ∃ found, elf.loaded.getSectionData sectionName = some found ∧
      ∀ data, found = some data → data.offset + data.size ≤ elf.file.bytes.length := by
  rw [loaded_getSectionData hheader]
  constructor
  · intro h
    apply findSomeM?_induct
    intro xs i ys hrange hxs
    obtain ⟨hi, rfl, -⟩ := range_eq_append_cons_iff.mp hrange
    apply lookAt_of_sectionInside hheader (Nat.lt_trans hi scanBound_lt)
    apply h i hi
    intro j hj hname
    have hsome := isSome_of_lookAt hheader
      (Nat.lt_trans hj (Nat.lt_trans hi scanBound_lt)) (hxs j (List.mem_range.mpr hj))
    exact absurd (hsome.mpr hname) (by decide)
  · rintro ⟨found, hsearch, hfound⟩ i hi hnames
    have hpassed := lookAt_of_not_hasName hheader hsearch hi hnames
    rw [findSomeM?_range_of_forall_lt hi hpassed, List.findSomeM?_cons] at hsearch
    obtain ⟨look, hlook, hsearch⟩ := Option.bind_eq_some_iff.mp hsearch
    apply sectionInside_of_lookAt hheader (Nat.lt_trans hi scanBound_lt) hlook
    rintro data rfl
    exact hfound data (Option.some.inj hsearch).symm

end Elf

/-! ## Files that `Load` accepts -/

inductive ByteOrder where
  | little
  | big
  deriving DecidableEq, Repr

namespace ByteOrder

/-- `ELFDATA2LSB` and `ELFDATA2MSB`. -/
def ident : ByteOrder → U8
  | little => 1
  | big => 2

/-- Whether it is the other order than that of the host. -/
def swapped : ByteOrder → Bool
  | little => false
  | big => true

end ByteOrder

namespace ElfFile

structure HasIdent (file : ElfFile) (c : ElfClass) (order : ByteOrder) : Prop where
  magic : file.bytes.take 4 = ELFMAG
  elfClass : file.bytes[EI_CLASS]? = some c.ident
  data : file.bytes[EI_DATA]? = some order.ident

/-- The files that `Load` rejects, by what it looks at. -/
def RejectedByLoad (file : ElfFile) : Prop :=
  file.bytes.length < EI_CLASS ∨ file.bytes.take 4 ≠ ELFMAG ∨
    ∃ data elfClass, file.bytes[EI_DATA]? = some data ∧ file.bytes[EI_CLASS]? = some elfClass ∧
      (data = 0 ∨ data.toInt > 2 ∨
        elfClass ≠ ElfClass.elf32.ident ∧ elfClass ≠ ElfClass.elf64.ident)

end ElfFile

section Load

variable {file : ElfFile} {c : ElfClass} {order : ByteOrder}

theorem length_of_getElem? {l : List U8} {i : ℕ} {b : U8} (h : l[i]? = some b) : i < l.length :=
  (List.getElem?_eq_some_iff.mp h).1

theorem load_of_hasIdent (h : file.HasIdent c order) :
    Elf.load file = some <$> Elf.construct ⟨file, c, order.swapped⟩ := by
  have hlength : ¬ file.bytes.length < EI_CLASS := Nat.not_lt.mpr
    (Nat.le_of_lt (length_of_getElem? h.elfClass))
  rw [Elf.load, if_neg hlength, if_neg (not_not.mpr h.magic), h.data, h.elfClass]
  cases c <;> cases order <;> rfl

/-- `Load` rejects the file and reads nothing outside it. -/
theorem load_of_rejected (h : file.RejectedByLoad) : Elf.load file = some none := by
  rw [Elf.load]
  by_cases hlength : file.bytes.length < EI_CLASS
  · rw [if_pos hlength]
  rw [if_neg hlength]
  by_cases hmagic : file.bytes.take 4 ≠ ELFMAG
  · rw [if_pos hmagic]
  rw [if_neg hmagic]
  obtain ⟨data, elfClass, hdata, hclass, h⟩ := (h.resolve_left hlength).resolve_left hmagic
  rw [hdata, hclass]
  simp only [Option.bind_eq_bind, Option.bind_some]
  by_cases hinvalid : data = 0 ∨ data.toInt > 2
  · rw [if_pos hinvalid]
    rfl
  · rw [not_or] at hinvalid
    obtain ⟨h32, h64⟩ := (h.resolve_left hinvalid.1).resolve_left hinvalid.2
    rw [if_neg (not_or.mpr hinvalid), if_neg h32, if_neg h64]
    rfl

private theorem map_construct_ne (elf : Elf) : some <$> elf.construct ≠ some none := by
  cases elf.construct with
  | none => exact Option.some_ne_none none ∘ Eq.symm
  | some loaded => exact fun h => Option.some_ne_none loaded (Option.some.inj h)

theorem load_eq_some_none_iff : Elf.load file = some none ↔ file.RejectedByLoad := by
  refine ⟨fun h => ?_, load_of_rejected⟩
  rw [Elf.load] at h
  by_cases hlength : file.bytes.length < EI_CLASS
  · exact Or.inl hlength
  rw [if_neg hlength] at h
  by_cases hmagic : file.bytes.take 4 ≠ ELFMAG
  · exact Or.inr (Or.inl hmagic)
  rw [if_neg hmagic] at h
  obtain ⟨data, hdata, h⟩ := Option.bind_eq_some_iff.mp h
  have hbytes : EI_CLASS < file.bytes.length :=
    Nat.lt_trans (by decide) (length_of_getElem? hdata)
  have hclass := List.getElem?_eq_getElem hbytes
  refine Or.inr (Or.inr ⟨data, _, hdata, hclass, ?_⟩)
  by_cases hinvalid : data = 0 ∨ data.toInt > 2
  · rcases hinvalid with hzero | hhigh
    · exact Or.inl hzero
    · exact Or.inr (Or.inl hhigh)
  rw [if_neg hinvalid, hclass] at h
  simp only [Option.bind_eq_bind, Option.bind_some] at h
  refine Or.inr (Or.inr ⟨fun h32 => ?_, fun h64 => ?_⟩)
  · rw [if_pos h32] at h
    exact map_construct_ne _ h
  · rw [if_neg (by rw [h64]; decide), if_pos h64] at h
    exact map_construct_ne _ h

/-- The checks are just those that make a run of the reader stay inside the file. -/
theorem checked_iff (h : file.HasIdent c order) (sectionName : CString) :
    (Elf.mk file c order.swapped).Checked sectionName ↔
      ∃ found, file.sectionData sectionName = some found ∧
        ∀ data, found = some data → data.offset + data.size ≤ file.bytes.length := by
  have hload := load_of_hasIdent h
  constructor
  · rintro ⟨hheader, hproduct, htable, hsections⟩
    rw [ElfFile.sectionData, hload, Elf.construct_of_header hheader hproduct htable]
    exact (Elf.getSectionData_inside_iff hheader).mp hsections
  · rintro ⟨found, hfound, hrange⟩
    rw [ElfFile.sectionData, hload] at hfound
    obtain ⟨_, hloaded, hfound⟩ := Option.bind_eq_some_iff.mp hfound
    obtain ⟨loaded, hconstruct, rfl⟩ := Option.map_eq_some_iff.mp hloaded
    obtain ⟨hheader, hproduct, htable⟩ := Elf.checked_of_construct hconstruct
    rw [Elf.construct_of_header hheader hproduct htable] at hconstruct
    cases hconstruct
    exact ⟨hheader, hproduct, htable,
      (Elf.getSectionData_inside_iff hheader).mpr ⟨found, hfound, hrange⟩⟩

/-- The reader reads only bytes of the file, what it returns lies inside the file, and a file with
another format or with something outside of it is rejected. -/
structure ElfFile.StaysInside (file : ElfFile) (sectionName : CString) : Prop where
  reads : file.sectionData sectionName ≠ none
  range : ∀ data, file.sectionData sectionName = some (some data) →
    data.offset + data.size ≤ file.bytes.length
  malformed : (¬ ∃ c order, file.HasIdent c order) → Elf.load file = some none
  truncated : ∀ c order, file.HasIdent c order →
    ¬ (Elf.mk file c order.swapped).Checked sectionName → file.sectionData sectionName = some none

/-- The reader stays inside just the files that `Load` rejects and those that pass the checks it
leaves out. -/
theorem staysInside_iff (file : ElfFile) (sectionName : CString) :
    file.StaysInside sectionName ↔ file.RejectedByLoad ∨ ∃ c order, file.HasIdent c order ∧
      (Elf.mk file c order.swapped).Checked sectionName := by
  constructor
  · intro h
    apply or_iff_not_imp_left.mpr
    intro hrejected
    have hident : ∃ c order, file.HasIdent c order := by
      by_contra hnone
      exact hrejected (load_eq_some_none_iff.mp (h.malformed hnone))
    obtain ⟨c, order, hident⟩ := hident
    obtain ⟨found, hfound⟩ := Option.ne_none_iff_exists'.mp h.reads
    refine ⟨c, order, hident, (checked_iff hident sectionName).mpr ⟨found, hfound, ?_⟩⟩
    rintro data rfl
    exact h.range data hfound
  · rintro (hrejected | ⟨c, order, hident, hchecked⟩)
    · have hload := load_of_rejected hrejected
      have hnull : file.sectionData sectionName = some none := by
        rw [ElfFile.sectionData, hload]
        rfl
      refine ⟨?_, ?_, fun _ => hload, fun _ _ _ _ => hnull⟩
      · rw [hnull]
        exact Option.some_ne_none none
      · rw [hnull]
        rintro data ⟨⟩
    · obtain ⟨found, hfound, hrange⟩ := (checked_iff hident sectionName).mp hchecked
      refine ⟨?_, ?_, fun hnone => absurd ⟨c, order, hident⟩ hnone, ?_⟩
      · rw [hfound]
        exact Option.some_ne_none found
      · intro data hdata
        exact hrange data (Option.some.inj (hfound.symm.trans hdata))
      · intro c' order' hident' hnot
        exact absurd ((checked_iff hident' sectionName).mpr ⟨found, hfound, hrange⟩) hnot

/-- The magic number alone: `Load` looks for the byte order behind the end of the file. -/
theorem not_staysInside_magic :
    ¬ ∀ (file : ElfFile) (sectionName : CString), file.StaysInside sectionName := by
  intro h
  exact (h ⟨ELFMAG, by decide⟩ ⟨[], List.not_mem_nil⟩).reads rfl

end Load

end Virt86
