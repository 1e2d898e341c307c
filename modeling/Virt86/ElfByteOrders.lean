import Virt86.ElfFiles

/-!
# Byte orders of ELF files

An image is what an ELF file says of its sections. It is encoded in a file in one of two byte
orders, and the reader is to find the same in both.
-/

namespace Virt86

open BitSlices CStrings Searches

def ByteOrder.decode : ByteOrder → List U8 → ℕ
  | little, bytes => littleEndian bytes
  | big, bytes => littleEndian bytes.reverse

/-- A field in a byte order. -/
def ElfFile.field (file : ElfFile) (order : ByteOrder) (place size : ℕ) : ℕ :=
  order.decode ((file.bytes.drop place).take size)

structure ElfSection where
  name : CString
  offset : ℕ
  size : ℕ

/-- What `GetSectionData` returns at a section. -/
def ElfSection.dataFor (sectionName : CString) (s : ElfSection) : Option SectionData :=
  if s.name.chars = sectionName.chars then some ⟨s.offset, s.size⟩ else none

structure ElfImage where
  elfClass : ElfClass
  shoff : ℕ
  shentsize : ℕ
  shstrndx : ℕ
  sections : List ElfSection

namespace ElfImage

variable (image : ElfImage) (order : ByteOrder) (file : ElfFile)

/-- The place of a section header. -/
def headerPlace (index : ℕ) : ℕ := image.shoff + index * image.shentsize

/-- The place of the string table. -/
def stringsPlace : ℕ :=
  file.field order (image.headerPlace image.shstrndx + image.elfClass.sh_offset) image.elfClass.word

/-- The headers of a section and its name are in the file. -/
structure EncodesSection (index : ℕ) (s : ElfSection) : Prop where
  name_inside : image.headerPlace index + 4 ≤ file.bytes.length
  offset_inside : image.headerPlace index + image.elfClass.sh_offset + image.elfClass.word ≤
    file.bytes.length
  size_inside : image.headerPlace index + image.elfClass.sh_size + image.elfClass.word ≤
    file.bytes.length
  name : s.name.buffer <+: file.bytes.drop (image.stringsPlace order file +
    file.field order (image.headerPlace index) 4)
  offset : file.field order (image.headerPlace index + image.elfClass.sh_offset)
    image.elfClass.word = s.offset
  size : file.field order (image.headerPlace index + image.elfClass.sh_size)
    image.elfClass.word = s.size

/-- A file encodes the image in a byte order. All that is needed to read it is in the file. -/
structure Encodes : Prop where
  ident : file.HasIdent image.elfClass order
  header_inside : image.elfClass.e_shstrndx + 2 ≤ file.bytes.length
  shoff : file.field order image.elfClass.e_shoff image.elfClass.word = image.shoff
  shentsize : file.field order image.elfClass.e_shentsize 2 = image.shentsize
  shnum : file.field order image.elfClass.e_shnum 2 = image.sections.length
  shstrndx : file.field order image.elfClass.e_shstrndx 2 = image.shstrndx
  strings_inside : image.headerPlace image.shstrndx + image.elfClass.sh_offset +
    image.elfClass.word ≤ file.bytes.length
  sections : ∀ i s, image.sections[i]? = some s → image.EncodesSection order file i s

end ElfImage

/-- The sections that the loop of `GetSectionData` looks at. -/
def LoadedElf.examined (elf : LoadedElf) (sectionName : CString) : List ℕ :=
  (elf.shnum.map fun shnum => Searches.examined (elf.lookAt sectionName) (List.range shnum)).getD []

def ElfFile.examined (file : ElfFile) (sectionName : CString) : List ℕ :=
  ((Elf.load file).join.map fun elf => elf.examined sectionName).getD []

/-! ## Reading an encoded image -/

section Reading

variable {image : ElfImage} {order : ByteOrder} {file : ElfFile}

theorem decode_eq_endianSwap (order : ByteOrder) (bytes : List U8) :
    littleEndian (endianSwap bytes order.swapped) = order.decode bytes := by
  cases order <;> rfl

theorem value_eq_field (c : ElfClass) {place size : ℕ} (h : place + size ≤ file.bytes.length) :
    (Elf.mk file c order.swapped).value (BitVec.ofNat 64 place) size =
      file.field order place size := by
  have hlength := file.length_lt
  have hplace : (BitVec.ofNat 64 place).toNat = place := by
    rw [BitVec.toNat_ofNat, Nat.mod_eq_of_lt (by omega)]
  rw [Elf.value, ElfFile.number, decode_eq_endianSwap, ElfFile.rest, hplace, ElfFile.field]

namespace ElfImage

/-- The reader of a file that encodes the image. -/
def reader (image : ElfImage) (order : ByteOrder) (file : ElfFile) : Elf :=
  ⟨file, image.elfClass, order.swapped⟩

namespace Encodes

variable (h : image.Encodes order file)

include h

theorem headerInside : (image.reader order file).HeaderInside := h.header_inside

theorem reader_shoff : (image.reader order file).headerValue image.elfClass.e_shoff
    image.elfClass.word = image.shoff := by
  rw [← h.shoff]
  exact value_eq_field _ (Nat.le_trans (Elf.shoff_le _) h.header_inside)

theorem reader_shentsize :
    (image.reader order file).headerValue image.elfClass.e_shentsize 2 = image.shentsize := by
  rw [← h.shentsize]
  exact value_eq_field _ (Nat.le_trans (Elf.shentsize_le _) h.header_inside)

theorem reader_shstrndx : (image.reader order file).shstrndx = image.shstrndx := by
  rw [← h.shstrndx]
  exact value_eq_field _ h.header_inside

theorem reader_sectionHeader (i : ℕ) :
    (image.reader order file).sectionHeader i = BitVec.ofNat 64 (image.headerPlace i) := by
  rw [headerPlace, ← h.reader_shoff, ← h.reader_shentsize]
  rfl

theorem reader_sectionField (i field : ℕ) : (image.reader order file).sectionField i field =
    BitVec.ofNat 64 (image.headerPlace i + field) := by
  rw [Elf.sectionField, h.reader_sectionHeader, BitVec.ofNat_add]

theorem fieldInside {i field : ℕ}
    (hfield : image.headerPlace i + field + image.elfClass.word ≤ file.bytes.length) :
    (image.reader order file).FieldInside i field := by
  rw [Elf.FieldInside, h.reader_sectionField]
  exact file.inside_ofNat hfield

theorem reader_stringTable : (image.reader order file).stringTable =
    BitVec.ofNat 64 (image.stringsPlace order file) := by
  rw [Elf.stringTable, h.reader_shstrndx, Elf.sectionOffset, h.reader_sectionField]
  exact congrArg (BitVec.ofNat 64) (value_eq_field _ h.strings_inside)

theorem reader_nameAt {i : ℕ} {s : ElfSection} (hs : image.EncodesSection order file i s) :
    s.name.buffer <+: (image.reader order file).nameAt i := by
  have hlength := file.length_lt
  have hname : (image.reader order file).value (BitVec.ofNat 64 (image.headerPlace i)) 4 =
      file.field order (image.headerPlace i) 4 := value_eq_field _ hs.name_inside
  have hplace : image.stringsPlace order file + file.field order (image.headerPlace i) 4 <
      file.bytes.length := by
    have hle := hs.name.length_le
    rw [CString.buffer, List.length_append, List.length_singleton, List.length_drop] at hle
    omega
  rw [Elf.nameAt, h.reader_stringTable, h.reader_sectionHeader, hname, ← BitVec.ofNat_add,
    ElfFile.rest, BitVec.toNat_ofNat, Nat.mod_eq_of_lt (Nat.lt_trans hplace hlength)]
  exact hs.name

theorem shnum_inside : image.elfClass.e_shnum + 2 ≤ file.bytes.length :=
  Nat.le_trans (Elf.shnum_le _) h.header_inside

theorem length_sections_lt : image.sections.length < 2 ^ 16 := by
  have hvalue : (image.reader order file).headerValue image.elfClass.e_shnum 2 =
      file.field order image.elfClass.e_shnum 2 := value_eq_field _ h.shnum_inside
  rw [← h.shnum, ← hvalue]
  exact file.number_half_lt _ _

/-- A pass of the loop finds a section of the image if and only if it has the name. -/
theorem lookAt_section {i : ℕ} {s : ElfSection} (hs : image.sections[i]? = some s)
    (sectionName : CString) :
    (image.reader order file).loaded.lookAt sectionName i = some (s.dataFor sectionName) := by
  have hi : i < image.sections.length := (List.getElem?_eq_some_iff.mp hs).1
  have hsection := h.sections i s hs
  have hinside : file.Inside ((image.reader order file).sectionHeader i) 4 := by
    rw [h.reader_sectionHeader]
    exact file.inside_ofNat hsection.name_inside
  have hoffset : (image.reader order file).sectionOffset i = s.offset := by
    rw [Elf.sectionOffset, h.reader_sectionField, ← hsection.offset]
    exact value_eq_field _ hsection.offset_inside
  have hsize : (image.reader order file).sectionSize i = s.size := by
    rw [Elf.sectionSize, h.reader_sectionField, ← hsection.size]
    exact value_eq_field _ hsection.size_inside
  obtain ⟨rest, hrest⟩ := h.reader_nameAt hsection
  have hcompare : strcmp ((image.reader order file).nameAt i) sectionName.buffer =
      some (decide (s.name.chars = sectionName.chars)) := by
    rw [← hrest, CString.buffer, CString.buffer, List.append_assoc]
    exact strcmp_terminated rest [] s.name.no_nul sectionName.no_nul
  rw [Elf.loaded_lookAt h.headerInside (Nat.lt_trans hi h.length_sections_lt),
    Elf.enSwap_of_inside hinside, hcompare, Option.bind_some, Option.bind_some, ElfSection.dataFor]
  by_cases hname : s.name.chars = sectionName.chars
  · rw [if_pos (decide_eq_true hname), if_pos hname, Elf.sectionData_of_inside
      (h.fieldInside hsection.size_inside) (h.fieldInside hsection.offset_inside), hoffset, hsize]
    rfl
  · rw [if_neg (by simp [hname]), if_neg hname]

theorem load_eq (hproduct : image.shstrndx * image.shentsize < 2 ^ 31) :
    Elf.load file = some (some (image.reader order file).loaded) := by
  have hproduct' : (image.reader order file).shstrndx *
      (image.reader order file).headerValue image.elfClass.e_shentsize 2 < 2 ^ 31 := by
    rw [h.reader_shstrndx, h.reader_shentsize]
    exact hproduct
  have htable : (image.reader order file).FieldInside (image.reader order file).shstrndx
      image.elfClass.sh_offset := by
    rw [h.reader_shstrndx]
    exact h.fieldInside h.strings_inside
  rw [load_of_hasIdent h.ident]
  exact congrArg (Option.map some) (Elf.construct_of_header h.headerInside hproduct' htable)

theorem product_of_load {loaded : Option LoadedElf} (hload : Elf.load file = some loaded) :
    image.shstrndx * image.shentsize < 2 ^ 31 := by
  rw [load_of_hasIdent h.ident] at hload
  obtain ⟨_, hconstruct, -⟩ := Option.map_eq_some_iff.mp hload
  have hproduct := (Elf.checked_of_construct hconstruct).2.1
  rw [← h.reader_shstrndx, ← h.reader_shentsize]
  exact hproduct

theorem scanBound_eq : (image.reader order file).scanBound =
    file.field .little image.elfClass.e_shnum 2 := by
  have hvalue : (Elf.mk file image.elfClass ByteOrder.little.swapped).value
      (BitVec.ofNat 64 image.elfClass.e_shnum) 2 = file.field .little image.elfClass.e_shnum 2 :=
    value_eq_field _ h.shnum_inside
  exact hvalue

/-- Names that no section has are searched for in the sections of the image, and in no more if and
only if `e_shnum` is the same without the swap. -/
theorem examined_eq_iff (hproduct : image.shstrndx * image.shentsize < 2 ^ 31)
    {sectionName : CString} (habsent : ∀ s ∈ image.sections, s.name.chars ≠ sectionName.chars) :
    file.examined sectionName = List.range image.sections.length ↔
      file.field .little image.elfClass.e_shnum 2 = image.sections.length := by
  have hpass : ∀ j < image.sections.length,
      (image.reader order file).loaded.lookAt sectionName j = some none := by
    intro j hj
    have hs := List.getElem?_eq_getElem hj
    rw [h.lookAt_section hs, ElfSection.dataFor, if_neg (habsent _ (List.getElem_mem hj))]
  have hexamined : file.examined sectionName =
      Searches.examined ((image.reader order file).loaded.lookAt sectionName)
        (List.range (file.field .little image.elfClass.e_shnum 2)) := by
    rw [ElfFile.examined, h.load_eq hproduct, ← h.scanBound_eq]
    change (((image.reader order file).loaded.shnum).map _).getD [] = _
    rw [Elf.loaded_shnum h.headerInside]
    rfl
  rw [hexamined]
  exact examined_range_eq_iff hpass

/-- With the right bound the reader finds the first section of the image that has the name. -/
theorem sectionData_eq (hproduct : image.shstrndx * image.shentsize < 2 ^ 31)
    (hbound : file.field .little image.elfClass.e_shnum 2 = image.sections.length)
    (sectionName : CString) :
    file.sectionData sectionName = some (image.sections.findSome? (·.dataFor sectionName)) := by
  rw [ElfFile.sectionData, h.load_eq hproduct, ← findSome?_range_length]
  change (image.reader order file).loaded.getSectionData sectionName = _
  rw [Elf.loaded_getSectionData h.headerInside, h.scanBound_eq, hbound]
  apply findSomeM?_eq_findSome?
  intro i hi
  have hs := List.getElem?_eq_getElem (List.mem_range.mp hi)
  rw [h.lookAt_section hs, hs, Option.bind_some]

/-- With the right bound the reader stays inside a file that holds all the sections. -/
theorem staysInside (hproduct : image.shstrndx * image.shentsize < 2 ^ 31)
    (hbound : file.field .little image.elfClass.e_shnum 2 = image.sections.length)
    (hdata : ∀ s ∈ image.sections, s.offset + s.size ≤ file.bytes.length)
    (sectionName : CString) : file.StaysInside sectionName := by
  have hfind := h.sectionData_eq hproduct hbound sectionName
  have hrange : ∀ data, image.sections.findSome? (·.dataFor sectionName) = some data →
      data.offset + data.size ≤ file.bytes.length := by
    intro data hfound
    obtain ⟨s, hs, hsdata⟩ := List.exists_of_findSome?_eq_some hfound
    obtain ⟨-, hsdata⟩ := Option.ite_none_right_eq_some.mp hsdata
    rw [← Option.some.inj hsdata]
    exact hdata s hs
  refine ⟨?_, ?_, fun hnone => absurd ⟨_, _, h.ident⟩ hnone, fun c order' hident hnot => ?_⟩
  · rw [hfind]
    exact Option.some_ne_none _
  · rw [hfind]
    exact fun data hfound => hrange data (Option.some.inj hfound)
  · exact absurd ((checked_iff hident sectionName).mpr ⟨_, hfind, hrange⟩) hnot

end Encodes

end ElfImage

/-- Two bytes are the same number in both orders if and only if they are equal. -/
theorem field_half_eq_iff {place : ℕ} (h : place + 2 ≤ file.bytes.length) :
    file.field .little place 2 = file.field .big place 2 ↔
      file.field .big place 2 % 256 = file.field .big place 2 / 256 := by
  have hlength : ((file.bytes.drop place).take 2).length = 2 := by
    rw [List.length_take, List.length_drop]
    omega
  obtain ⟨x, y, hbytes⟩ := List.length_eq_two.mp hlength
  have hx : x.toNat < 256 := x.isLt
  have hy : y.toNat < 256 := y.isLt
  simp only [ElfFile.field, hbytes, ByteOrder.decode, littleEndian, List.reverse_cons,
    List.reverse_nil, List.nil_append, List.cons_append]
  omega

private theorem exists_length_lt (sections : List ElfSection) :
    ∃ n, ∀ s ∈ sections, s.name.chars.length < n := by
  induction sections with
  | nil => exact ⟨0, fun s hs => absurd hs List.not_mem_nil⟩
  | cons s sections ih =>
    obtain ⟨n, hn⟩ := ih
    refine ⟨max n (s.name.chars.length + 1), List.forall_mem_cons.mpr ⟨by omega, fun t ht => ?_⟩⟩
    exact Nat.lt_of_lt_of_le (hn t ht) (Nat.le_max_left _ _)

/-- There are names that no section has. -/
theorem exists_absent (sections : List ElfSection) :
    ∃ sectionName : CString, ∀ s ∈ sections, s.name.chars ≠ sectionName.chars := by
  obtain ⟨n, hn⟩ := exists_length_lt sections
  have hnul : (0 : U8) ∉ List.replicate n 1 := fun h => by
    cases List.eq_of_mem_replicate h
  refine ⟨⟨List.replicate n 1, hnul⟩, fun s hs heq => ?_⟩
  have hlt := hn s hs
  rw [heq, List.length_replicate] at hlt
  exact Nat.lt_irrefl n hlt

/-- Two files with the image give the same section for each name, without leaving the files, and all
sections of the image and no others are looked at for the names that are not there. -/
structure ElfImage.ReadAlike (image : ElfImage) (a b : ElfFile) : Prop where
  data : ∀ sectionName, ∃ found,
    a.sectionData sectionName = some found ∧ b.sectionData sectionName = some found
  scan : ∀ sectionName : CString, (∀ s ∈ image.sections, s.name.chars ≠ sectionName.chars) →
    a.examined sectionName = List.range image.sections.length ∧
      b.examined sectionName = List.range image.sections.length

/-- The two byte orders of an image are read alike if and only if the bytes of `e_shnum` are equal
and the product that leads to the string table is an `int`. -/
theorem readAlike_iff (image : ElfImage) (a b : ElfFile) (ha : image.Encodes .little a)
    (hb : image.Encodes .big b) :
    image.ReadAlike a b ↔ image.sections.length % 256 = image.sections.length / 256 ∧
      image.shstrndx * image.shentsize < 2 ^ 31 := by
  have hbytes := field_half_eq_iff hb.shnum_inside
  rw [hb.shnum] at hbytes
  rw [← hbytes]
  constructor
  · rintro ⟨hdata, hscan⟩
    have hproduct : image.shstrndx * image.shentsize < 2 ^ 31 := by
      obtain ⟨found, hfound, -⟩ := hdata ⟨[], List.not_mem_nil⟩
      obtain ⟨loaded, hload, -⟩ := Option.bind_eq_some_iff.mp hfound
      exact ha.product_of_load hload
    obtain ⟨sectionName, habsent⟩ := exists_absent image.sections
    exact ⟨(hb.examined_eq_iff hproduct habsent).mp (hscan sectionName habsent).2, hproduct⟩
  · rintro ⟨hbound, hproduct⟩
    refine ⟨fun sectionName => ⟨_, ha.sectionData_eq hproduct ha.shnum sectionName,
      hb.sectionData_eq hproduct hbound sectionName⟩, fun sectionName habsent => ?_⟩
    exact ⟨(ha.examined_eq_iff hproduct habsent).mpr ha.shnum,
      (hb.examined_eq_iff hproduct habsent).mpr hbound⟩

end Reading

/-! ## An image with one section -/

def ByteOrder.half : ByteOrder → U8 → List U8
  | little, b => [b, 0]
  | big, b => [0, b]

def ByteOrder.fullword : ByteOrder → U8 → List U8
  | little, b => [b, 0, 0, 0]
  | big, b => [0, 0, 0, b]

/-- The only section is the string table, and its name is empty. -/
def tableImage : ElfImage := ⟨.elf32, 52, 40, 0, [⟨⟨[], List.not_mem_nil⟩, 92, 1⟩]⟩

def tableFile (order : ByteOrder) : ElfFile where
  bytes := ELFMAG ++ [1, order.ident, 1] ++ List.replicate 25 0 ++ order.fullword 52 ++
    List.replicate 10 0 ++ order.half 40 ++ order.half 1 ++ order.half 0 ++ List.replicate 16 0 ++
    order.fullword 92 ++ order.fullword 1 ++ List.replicate 17 0
  length_lt := by cases order <;> decide

theorem encodes_tableFile (order : ByteOrder) : tableImage.Encodes order (tableFile order) where
  ident := by cases order <;> exact ⟨rfl, rfl, rfl⟩
  header_inside := by cases order <;> decide
  shoff := by cases order <;> rfl
  shentsize := by cases order <;> rfl
  shnum := by cases order <;> rfl
  shstrndx := by cases order <;> rfl
  strings_inside := by cases order <;> decide
  sections := by
    rintro (_ | i) s hs
    · obtain rfl := Option.some.inj hs
      cases order <;> exact ⟨by decide, by decide, by decide, by decide, rfl, rfl⟩
    · cases hs

/-- With the big-endian `e_shnum` the loop goes on after the only section and leaves the file. -/
theorem not_readAlike_table : ¬ ∀ (image : ElfImage) (a b : ElfFile), image.Encodes .little a →
    image.Encodes .big b → image.ReadAlike a b := by
  intro h
  have halike := h _ _ _ (encodes_tableFile .little) (encodes_tableFile .big)
  obtain ⟨found, -, hfound⟩ := halike.data ⟨[0x61], by decide⟩
  have hleaves : (tableFile .big).sectionData ⟨[0x61], by decide⟩ = none := by decide
  rw [hleaves] at hfound
  cases hfound

theorem readAlike_iff_table : ¬ tableImage.ReadAlike (tableFile .little) (tableFile .big) :=
  (readAlike_iff tableImage _ _ (encodes_tableFile .little) (encodes_tableFile .big)).not.mpr
    (by decide)

end Virt86
