import ImmDosNx.Lib.Run
import Mathlib.Logic.Function.Basic

/-! The VGA text mode writer (`hardware/vga/text_mode.rs`): an 80 by 25 grid of
cells, each a character byte at an even offset from the buffer pointer and an
attribute byte after it. An operation moves the cursor and returns the bytes it
writes, each with its offset and the half of the cell it is meant for; `scroll`
reads the buffer, which is seen from the buffer pointer. The cursor stays on the
screen and every write lies in the 4000 bytes of the screen, but
`clear_screen_to_end` leaves the column undoubled, so from an odd column it
blanks attribute bytes, and from any other it starts at the wrong cell. -/
namespace ImmDosNx.Vga

inductive Color
  | black | blue | green | cyan | red | magenta | brown | lightGrey
  | darkGrey | lightBlue | lightGreen | lightCyan | lightRed | lightMagenta | lightBrown | white
  deriving DecidableEq, Repr

def Color.toU8 : Color → UInt8
  | .black => 0 | .blue => 1 | .green => 2 | .cyan => 3 | .red => 4 | .magenta => 5 | .brown => 6
  | .lightGrey => 7 | .darkGrey => 8 | .lightBlue => 9 | .lightGreen => 10 | .lightCyan => 11
  | .lightRed => 12 | .lightMagenta => 13 | .lightBrown => 14 | .white => 15

def colorCode (fg bg : Color) : UInt8 := (bg.toU8 <<< 4) ||| fg.toU8

inductive Plane
  | character
  | attribute
  deriving DecidableEq, Repr

structure Write where
  offset : Nat
  plane : Plane
  value : UInt8
  deriving DecidableEq, Repr

structure TextMode where
  basePointer : UInt32
  cursorCol : UInt8
  cursorRow : UInt8
  currentColor : UInt8
  deriving DecidableEq, Repr

def everyOther (offset limit : Nat) : List Nat := (List.range ((limit + 1 - offset) / 2)).map fun i => offset + 2 * i

def blank (offsets : List Nat) : List Write := offsets.map fun offset => ⟨offset, .character, 0x20⟩

def applyWrites (buffer : Nat → UInt8) (writes : List Write) : Nat → UInt8 :=
  writes.foldl (fun buffer w => Function.update buffer w.offset w.value) buffer

namespace TextMode

def new (base : UInt32) : TextMode := ⟨base, 0, 24, colorCode .lightGrey .black⟩

variable (t : TextMode) (buffer : Nat → UInt8)

def setFgColor (color : Color) : TextMode := { t with currentColor := (t.currentColor &&& 0xf0) ||| color.toU8 }

def setBgColor (color : Color) : TextMode := { t with currentColor := (color.toU8 <<< 4) ||| (t.currentColor &&& 0x0f) }

def resetColors : TextMode := { t with currentColor := colorCode .lightGrey .black }

def clearScreen : List Write := blank (everyOther 0 (2 * 80 * 25))

def clearScreenToBeginning : List Write :=
  let limit := t.cursorCol.toNat + t.cursorRow.toNat * 80
  blank (everyOther 0 (2 * limit + 1))

def clearScreenToEnd : List Write := blank (everyOther (t.cursorCol.toNat + t.cursorRow.toNat * 80 * 2) (2 * 80 * 25))

def clearRow : List Write :=
  let offset := t.cursorRow.toNat * 80 * 2
  blank (everyOther offset (offset + 80 * 2))

def clearRowToBeginning : List Write :=
  let offset := t.cursorRow.toNat * 80 * 2
  let limit := offset + t.cursorCol.toNat * 2
  blank (everyOther offset (limit + 1))

def clearRowToEnd : List Write :=
  blank (everyOther (t.cursorRow.toNat * 80 * 2 + t.cursorCol.toNat * 2) ((t.cursorRow.toNat + 1) * 80 * 2))

def scroll (rows : UInt8) : List Write :=
  if rows = 0 then []
  else if rows > 24 then clearScreen
  else
    let scrollRows := 25 - rows.toNat
    let offset := rows.toNat * 80 * 2
    let moved := (List.range (scrollRows * 80)).flatMap fun cell =>
      [⟨2 * cell, .character, buffer (2 * cell + offset)⟩, ⟨2 * cell + 1, .attribute, buffer (2 * cell + offset + 1)⟩]
    let cleared := (List.range (rows.toNat * 80)).flatMap fun cell =>
      [⟨2 * (scrollRows * 80 + cell), .character, 0x20⟩, ⟨2 * (scrollRows * 80 + cell) + 1, .attribute, t.currentColor⟩]
    moved ++ cleared

def newline : TextMode × List Write :=
  let t := { t with cursorCol := 0 }
  if t.cursorRow < 24 then ({ t with cursorRow := t.cursorRow + 1 }, []) else (t, t.scroll buffer 1)

def advanceCursor : TextMode × List Write :=
  if t.cursorCol < 79 then ({ t with cursorCol := t.cursorCol + 1 }, []) else t.newline buffer

def cellOffset : Nat := t.cursorRow.toNat * 160 + t.cursorCol.toNat * 2

def setCurrentCharacter (ch : UInt8) : List Write := [⟨t.cellOffset, .character, ch⟩]

def backspace : TextMode × List Write :=
  if t.cursorCol > 0 then
    let t := { t with cursorCol := t.cursorCol - 1 }
    (t, t.setCurrentCharacter 0x20)
  else if t.cursorRow > 0 then
    let t := { t with cursorCol := 79, cursorRow := t.cursorRow - 1 }
    (t, t.setCurrentCharacter 0x20)
  else (t, [])

def moveCursor (col row : UInt8) : TextMode :=
  { t with cursorCol := if col > 79 then 79 else col, cursorRow := if row > 24 then 24 else row }

/-- Here `new_col as u8` once `0 <= new_col <= bound`. -/
def clampCursor (position : Int32) (bound : UInt8) : UInt8 :=
  if position < 0 then 0 else if position > bound.toUInt32.toInt32 then bound else position.toInt.toNat.toUInt8

/-- The `isize` sums wrap. -/
def moveCursorRelative (dcol drow : Int32) : TextMode :=
  { t with cursorCol := clampCursor (t.cursorCol.toUInt32.toInt32 + dcol) 79,
           cursorRow := clampCursor (t.cursorRow.toUInt32.toInt32 + drow) 24 }

def disableCursor : List Write := [⟨t.cellOffset + 1, .attribute, t.currentColor⟩]

def invertCursor : List Write :=
  let color := buffer (t.cellOffset + 1)
  [⟨t.cellOffset + 1, .attribute, ((color &&& 0xf) <<< 4) ||| ((color &&& 0xf0) >>> 4)⟩]

def writeByte (byte : UInt8) : TextMode × List Write :=
  if byte = 0x0a then
    let (t', moved) := t.newline (applyWrites buffer t.disableCursor)
    (t', t.disableCursor ++ moved)
  else if 0x20 ≤ byte ∧ byte ≤ 0x7e then
    let written : List Write := [⟨t.cellOffset, .character, byte⟩, ⟨t.cellOffset + 1, .attribute, t.currentColor⟩]
    let (t', moved) := t.advanceCursor (applyWrites buffer written)
    (t', written ++ moved)
  else (t, [])

def setBufferPointer (ptr : UInt32) : TextMode × UInt32 := ({ t with basePointer := ptr }, t.basePointer)

end TextMode

inductive Op
  | writeByte (byte : UInt8)
  | newline
  | advanceCursor
  | backspace
  | moveCursor (col row : UInt8)
  | moveCursorRelative (dcol drow : Int32)
  | scroll (rows : UInt8)
  | clearScreen
  | clearScreenToBeginning
  | clearScreenToEnd
  | clearRow
  | clearRowToBeginning
  | clearRowToEnd
  deriving DecidableEq, Repr

def TextMode.perform (t : TextMode) (buffer : Nat → UInt8) : Op → TextMode × List Write
  | .writeByte byte => t.writeByte buffer byte
  | .newline => t.newline buffer
  | .advanceCursor => t.advanceCursor buffer
  | .backspace => t.backspace
  | .moveCursor col row => (t.moveCursor col row, [])
  | .moveCursorRelative dcol drow => (t.moveCursorRelative dcol drow, [])
  | .scroll rows => (t, t.scroll buffer rows)
  | .clearScreen => (t, TextMode.clearScreen)
  | .clearScreenToBeginning => (t, t.clearScreenToBeginning)
  | .clearScreenToEnd => (t, t.clearScreenToEnd)
  | .clearRow => (t, t.clearRow)
  | .clearRowToBeginning => (t, t.clearRowToBeginning)
  | .clearRowToEnd => (t, t.clearRowToEnd)

def step (s : TextMode × (Nat → UInt8)) (op : Op) : Option (TextMode × (Nat → UInt8)) :=
  let (t, writes) := s.1.perform s.2 op
  some (t, applyWrites s.2 writes)

def OnScreen (t : TextMode) : Prop := t.cursorCol ≤ 79 ∧ t.cursorRow ≤ 24

def Placed (w : Write) : Prop := w.offset < 4000 ∧ (w.plane = .character ↔ w.offset % 2 = 0)

def blankCells (first last : Nat) : List Write := (List.range (last - first)).map fun i => ⟨2 * (first + i), .character, 0x20⟩

theorem memEveryOther {offset limit o : Nat} :
    o ∈ everyOther offset limit ↔ offset ≤ o ∧ o < limit ∧ o % 2 = offset % 2 := by
  simp only [everyOther, List.mem_map, List.mem_range]
  constructor
  · rintro ⟨i, inside, rfl⟩
    omega
  · rintro ⟨above, below, parity⟩
    exact ⟨(o - offset) / 2, by omega, by omega⟩

theorem blankEvenCells (first last : Nat) : blank (everyOther (2 * first) (2 * last)) = blankCells first last := by
  simp only [blank, everyOther, blankCells, List.map_map]
  rw [show (2 * last + 1 - 2 * first) / 2 = last - first by omega]
  congr 1
  funext i
  simp only [Function.comp, Nat.mul_add]

theorem everyOtherPastOdd (first last : Nat) :
    everyOther (2 * first) (2 * last + 1) = everyOther (2 * first) (2 * (last + 1)) := by
  simp only [everyOther]
  congr 2
  omega

theorem placedBlankCells {first last : Nat} (within : last ≤ 2000) : ∀ w ∈ blankCells first last, Placed w := by
  intro w mem
  simp only [blankCells, List.mem_map, List.mem_range] at mem
  obtain ⟨i, inside, rfl⟩ := mem
  exact ⟨by simp only; omega, by simp only [true_iff]; omega⟩

namespace TextMode

variable (t : TextMode) (buffer : Nat → UInt8)

theorem clearScreenCells : clearScreen = blankCells 0 2000 := blankEvenCells 0 2000

theorem clearScreenToBeginningCells :
    t.clearScreenToBeginning = blankCells 0 (t.cursorRow.toNat * 80 + t.cursorCol.toNat + 1) := by
  rw [clearScreenToBeginning, ← blankEvenCells, show 0 = 2 * 0 from rfl, ← everyOtherPastOdd]
  congr 3
  omega

theorem clearRowCells : t.clearRow = blankCells (t.cursorRow.toNat * 80) (t.cursorRow.toNat * 80 + 80) := by
  rw [clearRow, ← blankEvenCells]
  congr 2 <;> omega

theorem clearRowToBeginningCells :
    t.clearRowToBeginning = blankCells (t.cursorRow.toNat * 80) (t.cursorRow.toNat * 80 + t.cursorCol.toNat + 1) := by
  rw [clearRowToBeginning, ← blankEvenCells, ← everyOtherPastOdd]
  congr 2 <;> omega

theorem clearRowToEndCells :
    t.clearRowToEnd = blankCells (t.cursorRow.toNat * 80 + t.cursorCol.toNat) (t.cursorRow.toNat * 80 + 80) := by
  rw [clearRowToEnd, ← blankEvenCells]
  congr 2 <;> omega

theorem placedScroll (rows : UInt8) : ∀ w ∈ t.scroll buffer rows, Placed w := by
  unfold scroll
  split
  · simp
  · split
    · rw [clearScreenCells]
      exact placedBlankCells (by omega)
    · next zero small =>
      have few : rows.toNat ≤ 24 := by simp [UInt8.lt_iff_toNat_lt] at small; omega
      intro w mem
      simp only [List.mem_append, List.mem_flatMap, List.mem_range, List.mem_cons, List.not_mem_nil,
        or_false] at mem
      rcases mem with ⟨cell, inside, rfl | rfl⟩ | ⟨cell, inside, rfl | rfl⟩ <;>
        exact ⟨by simp only; omega, by simp only [true_iff, false_iff, reduceCtorEq]; omega⟩

theorem placedNewline : ∀ w ∈ (t.newline buffer).2, Placed w := by
  simp only [newline]
  split
  · simp
  · exact placedScroll _ buffer 1

theorem placedAdvanceCursor : ∀ w ∈ (t.advanceCursor buffer).2, Placed w := by
  simp only [advanceCursor]
  split
  · simp
  · exact placedNewline t buffer

theorem newlineState : (t.newline buffer).1 =
    { t with cursorCol := 0, cursorRow := if t.cursorRow < 24 then t.cursorRow + 1 else t.cursorRow } := by
  by_cases last : t.cursorRow < 24 <;> simp [newline, last]

theorem advanceCursorState : (t.advanceCursor buffer).1 =
    if t.cursorCol < 79 then { t with cursorCol := t.cursorCol + 1 } else (t.newline buffer).1 := by
  by_cases last : t.cursorCol < 79 <;> simp [advanceCursor, last]

theorem writeByteState (byte : UInt8) : (t.writeByte buffer byte).1 =
    if byte = 0x0a then (t.newline buffer).1 else if 0x20 ≤ byte ∧ byte ≤ 0x7e then (t.advanceCursor buffer).1 else t := by
  by_cases newline : byte = 0x0a
  · simp only [writeByte, newline, if_true]
    rw [newlineState, newlineState]
  · by_cases printable : 0x20 ≤ byte ∧ byte ≤ 0x7e
    · simp only [writeByte, newline, printable, if_true, if_false, and_self]
      rw [advanceCursorState, advanceCursorState, newlineState, newlineState]
    · simp only [writeByte, newline, printable, if_false]

theorem cellOffsetBelow {t : TextMode} (onScreen : OnScreen t) : t.cellOffset + 1 < 4000 := by
  obtain ⟨col, row⟩ := onScreen
  simp only [UInt8.le_iff_toNat_le] at col row
  simp only [cellOffset]
  simp at col row
  omega

theorem onScreenNewline {t : TextMode} (onScreen : OnScreen t) : OnScreen (t.newline buffer).1 := by
  simp only [newline]
  split
  · exact ⟨by simp, by grind⟩
  · exact ⟨by simp, onScreen.2⟩

theorem onScreenAdvanceCursor {t : TextMode} (onScreen : OnScreen t) : OnScreen (t.advanceCursor buffer).1 := by
  simp only [advanceCursor]
  split
  · exact ⟨by grind, onScreen.2⟩
  · exact onScreenNewline buffer onScreen

theorem onScreenBackspace {t : TextMode} (onScreen : OnScreen t) : OnScreen t.backspace.1 := by
  obtain ⟨col, row⟩ := onScreen
  simp only [backspace]
  split
  · exact ⟨by grind, row⟩
  · split
    · exact ⟨UInt8.le_refl _, by grind⟩
    · exact ⟨col, row⟩

theorem onScreenMoveCursor (col row : UInt8) : OnScreen (t.moveCursor col row) :=
  ⟨by grind [moveCursor], by grind [moveCursor]⟩

theorem byteToInt32 (x : UInt8) : x.toUInt32.toInt32.toInt = x.toNat := by
  rw [show x.toUInt32.toInt32.toInt = x.toUInt32.toBitVec.toInt from rfl,
    BitVec.toInt_eq_toNat_of_lt (by have := x.toNat_lt; simp; omega)]
  simp

theorem clampCursorToNat (position : Int32) (bound : UInt8) :
    (clampCursor position bound).toNat = if position.toInt < 0 then 0 else min position.toInt.toNat bound.toNat := by
  have boundInt := byteToInt32 bound
  have small := bound.toNat_lt
  simp only [clampCursor, Int32.lt_iff_toInt_lt, Int32.toInt_zero, gt_iff_lt, boundInt]
  split
  · simp
  · split
    · omega
    · have fits : position.toInt.toNat < 256 := by omega
      rw [UInt8.toNat_ofNat_of_lt' fits]
      omega

theorem clampCursorLe (position : Int32) (bound : UInt8) : clampCursor position bound ≤ bound := by
  rw [UInt8.le_iff_toNat_le, clampCursorToNat]
  split <;> omega

theorem onScreenMoveCursorRelative (dcol drow : Int32) : OnScreen (t.moveCursorRelative dcol drow) :=
  ⟨clampCursorLe _ 79, clampCursorLe _ 24⟩

theorem onScreenWriteByte {t : TextMode} (onScreen : OnScreen t) (byte : UInt8) :
    OnScreen (t.writeByte buffer byte).1 := by
  simp only [writeByte]
  split
  · exact onScreenNewline _ onScreen
  · split
    · exact onScreenAdvanceCursor _ onScreen
    · exact onScreen

theorem onScreenPerform {t : TextMode} (onScreen : OnScreen t) (op : Op) : OnScreen (t.perform buffer op).1 := by
  cases op with
  | writeByte byte => exact onScreenWriteByte buffer onScreen byte
  | newline => exact onScreenNewline buffer onScreen
  | advanceCursor => exact onScreenAdvanceCursor buffer onScreen
  | backspace => exact onScreenBackspace onScreen
  | moveCursor col row => exact onScreenMoveCursor t col row
  | moveCursorRelative dcol drow => exact onScreenMoveCursorRelative t dcol drow
  | _ => exact onScreen

theorem placedCharacterAt {t : TextMode} (onScreen : OnScreen t) (value : UInt8) :
    Placed ⟨t.cellOffset, .character, value⟩ := by
  have below := cellOffsetBelow onScreen
  exact ⟨by simp only; omega, by simp only [true_iff, cellOffset]; omega⟩

theorem placedAttributeAt {t : TextMode} (onScreen : OnScreen t) (value : UInt8) :
    Placed ⟨t.cellOffset + 1, .attribute, value⟩ := by
  have below := cellOffsetBelow onScreen
  exact ⟨by simp only; omega, by simp only [reduceCtorEq, false_iff, cellOffset]; omega⟩

theorem cellsWithin {t : TextMode} (onScreen : OnScreen t) : t.cursorRow.toNat * 80 + 80 ≤ 2000 := by
  have row := onScreen.2
  simp only [UInt8.le_iff_toNat_le] at row
  simp at row
  omega

theorem placedBackspace {t : TextMode} (onScreen : OnScreen t) : ∀ w ∈ t.backspace.2, Placed w := by
  have moved := onScreenBackspace onScreen
  simp only [backspace] at moved ⊢
  split
  · simpa [setCurrentCharacter] using placedCharacterAt (by simpa [*] using moved) 0x20
  · split
    · simpa [setCurrentCharacter] using placedCharacterAt (by simpa [*] using moved) 0x20
    · simp

theorem placedWriteByte {t : TextMode} (onScreen : OnScreen t) (byte : UInt8) :
    ∀ w ∈ (t.writeByte buffer byte).2, Placed w := by
  simp only [writeByte]
  split
  · intro w mem
    rcases List.mem_append.mp mem with disabled | moved
    · simp only [disableCursor, List.mem_singleton] at disabled
      exact disabled ▸ placedAttributeAt onScreen _
    · exact placedNewline _ _ w moved
  · split
    · intro w mem
      simp only [List.mem_append, List.mem_cons, List.not_mem_nil, or_false] at mem
      rcases mem with (rfl | rfl) | moved
      · exact placedCharacterAt onScreen byte
      · exact placedAttributeAt onScreen _
      · exact placedAdvanceCursor _ _ w moved
    · simp

theorem placedPerform {t : TextMode} (onScreen : OnScreen t) (op : Op) (notToEnd : op ≠ .clearScreenToEnd) :
    ∀ w ∈ (t.perform buffer op).2, Placed w := by
  have rows := cellsWithin onScreen
  have col := onScreen.1
  simp only [UInt8.le_iff_toNat_le] at col
  simp at col
  cases op with
  | writeByte byte => exact placedWriteByte buffer onScreen byte
  | newline => exact placedNewline t buffer
  | advanceCursor => exact placedAdvanceCursor t buffer
  | backspace => exact placedBackspace onScreen
  | moveCursor col row => simp [perform]
  | moveCursorRelative dcol drow => simp [perform]
  | scroll count => exact placedScroll t buffer count
  | clearScreen =>
    simp only [perform]
    rw [clearScreenCells]
    exact placedBlankCells (by omega)
  | clearScreenToBeginning =>
    simp only [perform]
    rw [t.clearScreenToBeginningCells]
    exact placedBlankCells (by omega)
  | clearScreenToEnd => exact absurd rfl notToEnd
  | clearRow =>
    simp only [perform]
    rw [t.clearRowCells]
    exact placedBlankCells (by omega)
  | clearRowToBeginning =>
    simp only [perform]
    rw [t.clearRowToBeginningCells]
    exact placedBlankCells (by omega)
  | clearRowToEnd =>
    simp only [perform]
    rw [t.clearRowToEndCells]
    exact placedBlankCells (by omega)

theorem clearScreenToEndOdd (oddColumn : t.cursorCol.toNat % 2 = 1) :
    ∀ w ∈ t.clearScreenToEnd, w.plane = .character ∧ w.offset % 2 = 1 := by
  intro w mem
  simp only [clearScreenToEnd, blank, List.mem_map] at mem
  obtain ⟨o, within, rfl⟩ := mem
  rw [memEveryOther] at within
  refine ⟨rfl, ?_⟩
  show o % 2 = 1
  omega

end TextMode

def Agree (b₁ b₂ : Nat → UInt8) : Prop := ∀ o < 4000, b₁ o = b₂ o

theorem applyWritesPointwise {b₁ b₂ : Nat → UInt8} {o : Nat} (same : b₁ o = b₂ o) (writes : List Write) :
    applyWrites b₁ writes o = applyWrites b₂ writes o := by
  induction writes generalizing b₁ b₂ with
  | nil => exact same
  | cons w rest ih =>
    show applyWrites (Function.update b₁ w.offset w.value) rest o = applyWrites (Function.update b₂ w.offset w.value) rest o
    apply ih
    by_cases written : o = w.offset
    · simp [written]
    · simp [Function.update_of_ne written, same]

theorem agreeApplyWrites {b₁ b₂ : Nat → UInt8} (agree : Agree b₁ b₂) (writes : List Write) :
    Agree (applyWrites b₁ writes) (applyWrites b₂ writes) :=
  fun o inside => applyWritesPointwise (agree o inside) writes

namespace TextMode
variable (t : TextMode)

theorem scrollAgree {b₁ b₂ : Nat → UInt8} (agree : Agree b₁ b₂) (rows : UInt8) : t.scroll b₁ rows = t.scroll b₂ rows := by
  unfold scroll
  split
  · rfl
  · split
    · rfl
    · next zero small =>
      have few : rows.toNat ≤ 24 := by simp [UInt8.lt_iff_toNat_lt] at small; omega
      have positive : 0 < rows.toNat := by
        have := UInt8.toNat_inj.not.mpr zero
        simp at this
        omega
      simp only [List.flatMap_def]
      congr 2
      apply List.map_congr_left
      intro cell inside
      rw [List.mem_range] at inside
      have reads : 2 * cell + rows.toNat * 80 * 2 + 1 < 4000 := by
        have : cell + 1 ≤ (25 - rows.toNat) * 80 := inside
        omega
      rw [agree _ (by omega), agree _ reads]

theorem newlineAgree {b₁ b₂ : Nat → UInt8} (agree : Agree b₁ b₂) : t.newline b₁ = t.newline b₂ := by
  dsimp only [newline]
  split
  · rfl
  · rw [scrollAgree _ agree]

theorem advanceCursorAgree {b₁ b₂ : Nat → UInt8} (agree : Agree b₁ b₂) : t.advanceCursor b₁ = t.advanceCursor b₂ := by
  unfold advanceCursor
  split
  · rfl
  · exact newlineAgree t agree

theorem writeByteAgree {b₁ b₂ : Nat → UInt8} (agree : Agree b₁ b₂) (byte : UInt8) :
    t.writeByte b₁ byte = t.writeByte b₂ byte := by
  dsimp only [writeByte]
  split
  · rw [newlineAgree t (agreeApplyWrites agree _)]
  · split
    · rw [advanceCursorAgree t (agreeApplyWrites agree _)]
    · rfl

theorem performAgree {b₁ b₂ : Nat → UInt8} (agree : Agree b₁ b₂) (op : Op) : t.perform b₁ op = t.perform b₂ op := by
  cases op with
  | writeByte byte => exact writeByteAgree t agree byte
  | newline => exact newlineAgree t agree
  | advanceCursor => exact advanceCursorAgree t agree
  | scroll rows => exact congrArg (t, ·) (scrollAgree t agree rows)
  | _ => rfl

theorem writesBelow {t : TextMode} (onScreen : OnScreen t) (buffer : Nat → UInt8) (op : Op) :
    ∀ w ∈ (t.perform buffer op).2, w.offset < 4000 := by
  by_cases toEnd : op = .clearScreenToEnd
  · subst toEnd
    intro w mem
    simp only [perform, clearScreenToEnd, blank, List.mem_map] at mem
    obtain ⟨o, within, rfl⟩ := mem
    exact (memEveryOther.mp within).2.1
  · exact fun w mem => (placedPerform buffer onScreen op toEnd w mem).1

variable (buffer : Nat → UInt8) (p : UInt32)

theorem newlinePointer : ({ t with basePointer := p }).newline buffer =
    ({ (t.newline buffer).1 with basePointer := p }, (t.newline buffer).2) := by
  by_cases last : t.cursorRow < 24 <;> simp [newline, last, scroll]

theorem advanceCursorPointer : ({ t with basePointer := p }).advanceCursor buffer =
    ({ (t.advanceCursor buffer).1 with basePointer := p }, (t.advanceCursor buffer).2) := by
  by_cases last : t.cursorCol < 79
  · simp [advanceCursor, last]
  · simp only [advanceCursor, last, if_false]
    exact newlinePointer t buffer p

theorem writeBytePointer (byte : UInt8) : ({ t with basePointer := p }).writeByte buffer byte =
    ({ (t.writeByte buffer byte).1 with basePointer := p }, (t.writeByte buffer byte).2) := by
  by_cases newline : byte = 0x0a
  · simp only [writeByte, newline, if_true]
    rw [show ({ t with basePointer := p } : TextMode).disableCursor = t.disableCursor from rfl, newlinePointer]
  · by_cases printable : 0x20 ≤ byte ∧ byte ≤ 0x7e
    · simp only [writeByte, newline, printable, if_true, if_false, and_self]
      rw [show ({ t with basePointer := p } : TextMode).cellOffset = t.cellOffset from rfl, advanceCursorPointer]
    · simp [writeByte, newline, printable]

theorem backspacePointer : ({ t with basePointer := p }).backspace = ({ t.backspace.1 with basePointer := p }, t.backspace.2) := by
  unfold backspace
  split
  · rfl
  · split <;> rfl

theorem performPointer (op : Op) : ({ t with basePointer := p }).perform buffer op =
    ({ (t.perform buffer op).1 with basePointer := p }, (t.perform buffer op).2) := by
  cases op with
  | writeByte byte => exact writeBytePointer t buffer p byte
  | newline => exact newlinePointer t buffer p
  | advanceCursor => exact advanceCursorPointer t buffer p
  | backspace => exact backspacePointer t p
  | scroll rows => simp only [perform, scroll]
  | moveCursor col row => simp [perform, moveCursor]
  | moveCursorRelative dcol drow => simp [perform, moveCursorRelative]
  | clearScreen => simp only [perform]
  | clearScreenToBeginning => simp only [perform, clearScreenToBeginning]
  | clearScreenToEnd => simp only [perform, clearScreenToEnd]
  | clearRow => simp only [perform, clearRow]
  | clearRowToBeginning => simp only [perform, clearRowToBeginning]
  | clearRowToEnd => simp only [perform, clearRowToEnd]

theorem performBasePointer (op : Op) : (t.perform buffer op).1.basePointer = t.basePointer :=
  congrArg (fun result => result.1.basePointer) (performPointer t buffer t.basePointer op)

end TextMode

theorem onScreenNew (base : UInt32) : OnScreen (TextMode.new base) := ⟨UInt8.zero_le, UInt8.le_refl _⟩

theorem onScreenRun {base : UInt32} {buffer : Nat → UInt8} {ops : List Op} {s : TextMode × (Nat → UInt8)}
    (ran : Machine.run step (TextMode.new base, buffer) ops = some s) : OnScreen s.1 :=
  @Machine.runInvariant _ _ _ _ _ (fun s => OnScreen s.1) _ ran (onScreenNew base) fun s op t onScreen stepped => by
    simp only [step, Option.some.injEq] at stepped
    exact stepped ▸ TextMode.onScreenPerform s.2 onScreen op

theorem clearScreenToEndBlanksAttributes :
    (∀ base buffer ops s, Machine.run step (TextMode.new base, buffer) ops = some s →
      OnScreen s.1 ∧ ∀ op, op ≠ .clearScreenToEnd → ∀ w ∈ (s.1.perform s.2 op).2, Placed w) ∧
      (∀ t : TextMode, t.cursorCol.toNat % 2 = 1 → ∀ w ∈ t.clearScreenToEnd, w.plane = .character ∧ w.offset % 2 = 1) ∧
      ⟨1, .character, 0x20⟩ ∈ ((TextMode.new 0xc00b8000).moveCursor 1 0).clearScreenToEnd := by
  refine ⟨fun base buffer ops s ran => ⟨onScreenRun ran, fun op notToEnd => TextMode.placedPerform s.2 (onScreenRun ran) op
    notToEnd⟩, TextMode.clearScreenToEndOdd, ?_⟩
  simp only [TextMode.clearScreenToEnd, blank, List.mem_map]
  exact ⟨1, memEveryOther.mpr ⟨by decide, by decide, by decide⟩, rfl⟩

end ImmDosNx.Vga
