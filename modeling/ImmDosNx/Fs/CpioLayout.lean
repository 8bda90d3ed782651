import ImmDosNx.Fs.InitFs
import ImmDosNx.Lib.Align

/-! The layout that `cpio -H bin` writes, read back by the InitFS decoder. An
entry is a 26-byte header with the magic, `name_size` and the 32-bit size in two
16-bit words, then the NUL-terminated name and the data, each padded to an even
length; a `TRAILER!!!` entry ends the archive. Over every archive laid out so,
`CpioIterator` yields one header per entry, in order, and stops at the trailer,
and each header gives back its entry's name, size and data, and the distance to
the next header. -/
namespace ImmDosNx.Fs.InitFs

open CpioHeader

variable (memory : UInt32 → UInt8)

def evenUp (x : Nat) : Nat := x + x % 2

def entrySize (name data : List UInt8) : Nat := 26 + evenUp (name.length + 1) + evenUp data.length

structure EntryAt (header : UInt32) (name data : List UInt8) : Prop where
  magic : u16At memory header = 0x71c7
  nameSize : u16At memory (header + 20) = name.length + 1
  sizeHigh : u16At memory (header + 22) = data.length / 65536
  sizeLow : u16At memory (header + 24) = data.length % 65536
  nameBytes : bytesAt memory (header + 26) name.length = name
  terminator : memory (header + 26 + name.length.toUInt32) = 0
  dataBytes : bytesAt memory (header + (26 + evenUp (name.length + 1)).toUInt32) data.length = data

def LaidOut : UInt32 → List (List UInt8 × List UInt8) → Prop
  | header, [] => bytesAt memory (header + 26) trailer.length = trailer
  | header, (name, data) :: rest =>
    EntryAt memory header name data ∧ LaidOut (header + (entrySize name data).toUInt32) rest

def u16Bytes (x : Nat) : List UInt8 := [x.toUInt8, (x / 256).toUInt8]

def encodeEntry (name data : List UInt8) : List UInt8 :=
  u16Bytes 0x71c7 ++ List.replicate 18 0 ++ u16Bytes (name.length + 1) ++ u16Bytes (data.length / 65536) ++
    u16Bytes (data.length % 65536) ++ name ++ [0] ++ List.replicate ((name.length + 1) % 2) 0 ++ data ++
    List.replicate (data.length % 2) 0

def encodeArchive (entries : List (List UInt8 × List UInt8)) : List UInt8 :=
  (entries.map fun (name, data) => encodeEntry name data).flatten ++ encodeEntry trailer []

def loadAt (base : UInt32) (bytes : List UInt8) (address : UInt32) : UInt8 := bytes.getD (address - base).toNat 0

def headerAddresses : UInt32 → List (List UInt8 × List UInt8) → List UInt32
  | _, [] => []
  | header, (name, data) :: rest => header :: headerAddresses (header + (entrySize name data).toUInt32) rest

@[simp] theorem lengthBytesAt (address : UInt32) (count : Nat) : (bytesAt memory address count).length = count := by
  simp [bytesAt]

theorem getElemBytesAt (address : UInt32) {count i : Nat} (inside : i < count) :
    (bytesAt memory address count)[i]? = some (memory (address + i.toUInt32)) := by
  simp [bytesAt, inside]

theorem bytesAtTake (address : UInt32) {count more : Nat} (fewer : count ≤ more) :
    (bytesAt memory address more).take count = bytesAt memory address count := by
  simp [bytesAt, ← List.map_take, List.take_range, Nat.min_eq_left fewer]

theorem u16AtLt (address : UInt32) : u16At memory address < 65536 := by
  have low := (memory address).toNat_lt
  have high := (memory (address + 1)).toNat_lt
  simp only [u16At]
  omega

theorem toUInt32Add (a b : Nat) : (a + b).toUInt32 = a.toUInt32 + b.toUInt32 := UInt32.ofNat_add a b

theorem bitOneToNat (x : UInt32) : (x &&& 1).toNat = x.toNat % 2 :=
  @Align.toNatAndLowMask x 1 1 rfl

theorem bitOneNe (x : UInt32) : (x &&& 1 != 0) = decide (x.toNat % 2 = 1) := by
  apply Bool.eq_iff_iff.mpr
  rw [bne_iff_ne, ne_eq, ← UInt32.toNat_inj, bitOneToNat, UInt32.toNat_zero, decide_eq_true_iff]
  omega

theorem roundEven (x : Nat) :
    (if x.toUInt32 &&& 1 != 0 then x.toUInt32 + 1 else x.toUInt32) = (evenUp x).toUInt32 := by
  rw [bitOneNe, UInt32.toNat_ofNat', Nat.mod_mod_of_dvd _ (by decide), evenUp, toUInt32Add]
  cases Nat.mod_two_eq_zero_or_one x with
  | inl even => simp [even]
  | inr odd => simp [odd]

theorem notIsTrailer {header : UInt32} {name : List UInt8} (notPrefix : ¬ trailer <+: name)
    (nameBytes : bytesAt memory (header + 26) name.length = name)
    (terminator : memory (header + 26 + name.length.toUInt32) = 0) : isTrailer memory header = false := by
  simp only [isTrailer, getFilenamePtr, beq_eq_false_iff_ne]
  intro same
  by_cases long : trailer.length ≤ name.length
  · apply notPrefix
    rw [← same, ← bytesAtTake memory _ long, nameBytes]
    exact List.take_prefix _ _
  · have short : name.length < trailer.length := Nat.lt_of_not_le long
    have atNul := getElemBytesAt memory (header + 26) short
    simp only [same, terminator] at atNul
    have noZero : ∀ i < trailer.length, trailer[i]? ≠ some 0 := by decide
    exact noZero _ short atNul

section Entry

variable {memory} {header : UInt32} {name data : List UInt8} (entry : EntryAt memory header name data)
include entry

theorem entryNameSize : nameSize memory header = name.length + 1 := entry.nameSize

theorem entryFilename : getFilename memory header = name := by
  simp [getFilename, getFilenamePtr, entryNameSize entry, entry.nameBytes]

theorem entryDataSmall : data.length < 2 ^ 32 := by
  have high := u16AtLt memory (header + 22)
  rw [entry.sizeHigh] at high
  omega

theorem entryFileSize : (getFileSize memory header).toNat = data.length := by
  rw [getFileSize, entry.sizeHigh, entry.sizeLow, Nat.div_add_mod', UInt32.toNat_ofNat',
    Nat.mod_eq_of_lt (entryDataSmall entry)]

theorem entryContentPtr : getContentPtr memory header = header + (26 + evenUp (name.length + 1)).toUInt32 := by
  have small : name.length + 1 < 65536 := entryNameSize entry ▸ u16AtLt memory (header + 20)
  have offset : header + 26 + (name.length + 1).toUInt32 - header = (26 + (name.length + 1)).toUInt32 := by
    rw [toUInt32Add 26]
    grind
  have parity : (26 + (name.length + 1)).toUInt32.toNat % 2 = (name.length + 1) % 2 := by
    rw [UInt32.toNat_ofNat']
    omega
  simp only [getContentPtr, getFilenamePtr, entryNameSize entry, offset, bitOneNe, parity, evenUp]
  rw [toUInt32Add 26 (name.length + 1 + _), toUInt32Add (name.length + 1)]
  cases Nat.mod_two_eq_zero_or_one (name.length + 1) with
  | inl even => simp only [even]; grind
  | inr odd => simp only [odd]; grind

theorem entryLength : CpioHeader.length memory header = (entrySize name data).toUInt32 := by
  have fileSize : getFileSize memory header = data.length.toUInt32 := by
    rw [← UInt32.toNat_inj, entryFileSize entry, UInt32.toNat_ofNat', Nat.mod_eq_of_lt (entryDataSmall entry)]
  simp only [CpioHeader.length, entryNameSize entry, fileSize]
  rw [roundEven, roundEven, entrySize, toUInt32Add, toUInt32Add]
  rfl

end Entry

theorem cpioIteratorDecodesLayout (archive : UInt32) (entries : List (List UInt8 × List UInt8))
    (notTrailer : ∀ entry ∈ entries, ¬ trailer <+: entry.1) (laid : LaidOut memory archive entries)
    (fuel : Nat) (enough : entries.length < fuel) :
    cpioEntries memory archive fuel = headerAddresses archive entries ∧
      ∀ p ∈ (headerAddresses archive entries).zip entries,
        isValid memory p.1 = true ∧ getFilename memory p.1 = p.2.1 ∧
        (getFileSize memory p.1).toNat = p.2.2.length ∧
        bytesAt memory (getContentPtr memory p.1) (getFileSize memory p.1).toNat = p.2.2 ∧
        CpioHeader.length memory p.1 = (entrySize p.2.1 p.2.2).toUInt32 := by
  induction entries generalizing archive fuel with
  | nil =>
    obtain ⟨fuel, rfl⟩ : ∃ k, fuel = k + 1 := ⟨fuel - 1, by simp at enough; omega⟩
    refine ⟨?_, by simp [headerAddresses]⟩
    simp [cpioEntries, isTrailer, getFilenamePtr, headerAddresses, show bytesAt memory (archive + 26) trailer.length = trailer from laid]
  | cons entry rest ih =>
    obtain ⟨name, data⟩ := entry
    obtain ⟨fuel, rfl⟩ : ∃ k, fuel = k + 1 := ⟨fuel - 1, by simp at enough; omega⟩
    obtain ⟨here, later⟩ := laid
    have notLast := notIsTrailer memory (notTrailer _ List.mem_cons_self) here.nameBytes here.terminator
    obtain ⟨yields, decoded⟩ := ih _ (fun e mem => notTrailer e (List.mem_cons_of_mem _ mem)) later fuel
      (by simp at enough; omega)
    refine ⟨?_, fun p mem => ?_⟩
    · simp only [cpioEntries, notLast, headerAddresses, entryLength here, yields]
      rfl
    · simp only [headerAddresses, List.zip_cons_cons, List.mem_cons] at mem
      rcases mem with first | other
      · subst first
        refine ⟨by simp [isValid, magic, here.magic], entryFilename here, entryFileSize here, ?_, entryLength here⟩
        rw [entryFileSize here, entryContentPtr here, here.dataBytes]
      · exact decoded p other

theorem cpioDecodesTwoEntries :
    (∀ entry ∈ ([([0x41], [1, 2, 3]), ([0x42, 0x43], [])] : List (List UInt8 × List UInt8)), ¬ trailer <+: entry.1) ∧
      LaidOut (loadAt 0x100000 (encodeArchive [([0x41], [1, 2, 3]), ([0x42, 0x43], [])])) 0x100000
        [([0x41], [1, 2, 3]), ([0x42, 0x43], [])] ∧
      cpioEntries (loadAt 0x100000 (encodeArchive [([0x41], [1, 2, 3]), ([0x42, 0x43], [])])) 0x100000 3 =
        headerAddresses 0x100000 [([0x41], [1, 2, 3]), ([0x42, 0x43], [])] := by
  have notTrailer : ∀ entry ∈ ([([0x41], [1, 2, 3]), ([0x42, 0x43], [])] : List (List UInt8 × List UInt8)),
      ¬ trailer <+: entry.1 := by
    decide
  have laid : LaidOut (loadAt 0x100000 (encodeArchive [([0x41], [1, 2, 3]), ([0x42, 0x43], [])])) 0x100000
      [([0x41], [1, 2, 3]), ([0x42, 0x43], [])] := by
    simp only [LaidOut]
    refine ⟨⟨?_, ?_, ?_, ?_, ?_, ?_, ?_⟩, ⟨?_, ?_, ?_, ?_, ?_, ?_, ?_⟩, ?_⟩ <;> decide
  exact ⟨notTrailer, laid, (cpioIteratorDecodesLayout _ _ _ notTrailer laid 3 (by decide)).1⟩

end ImmDosNx.Fs.InitFs
