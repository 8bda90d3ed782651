import Mathlib
import ImmDosNx.Vterm.VTerm

/-! The reading of ANSI output that a terminal is meant to follow, for the cursor
alone, and `VTerm::send_characters` against it byte by byte. Outside escapes a
line feed starts the next row, a printable byte takes one cell and another control
byte but BS and ESC takes two (`^` and the byte plus 0x40); `ESC x` is skipped;
`ESC [ params final` moves by its first parameter for `A` to `D` and places the
cursor 1-based for `H`. The code follows it on every byte but two kinds: a final
`H`, whose row and column `send_characters` passes to `move_cursor` as column and
row without leaving the 1-based count, and a move by 2^31 - 80 or more, which the
cast to `isize` and the sum in `isize` turn around. -/
namespace ImmDosNx.Ansi

open Vga Tty Vterm

inductive Mode
  | text
  | escape
  | csi (params : List (Option Nat))
  deriving DecidableEq, Repr

def Mode.params : Mode → List (Option Nat)
  | .text => []
  | .escape => []
  | .csi params => params

structure Reference where
  mode : Mode
  col : Nat
  row : Nat
  deriving DecidableEq, Repr

namespace Reference

def newline (r : Reference) : Reference := { r with col := 0, row := min (r.row + 1) 24 }

def advance (r : Reference) : Reference := if r.col < 79 then { r with col := r.col + 1 } else r.newline

theorem advanceMode (r : Reference) : r.advance.mode = r.mode := by
  unfold advance newline
  split <;> rfl

def param (params : List (Option Nat)) (index fallback : Nat) : Nat := (params[index]?).join.getD fallback

def csiFinal (r : Reference) (params : List (Option Nat)) (ch : UInt8) : Reference :=
  let delta := param params 0 1
  if ch = 0x41 then { r with row := r.row - delta }
  else if ch = 0x42 then { r with row := min (r.row + delta) 24 }
  else if ch = 0x43 then { r with col := min (r.col + delta) 79 }
  else if ch = 0x44 then { r with col := r.col - delta }
  else if ch = 0x48 then
    { r with row := min (max (param params 0 1) 1) 25 - 1, col := min (max (param params 1 1) 1) 80 - 1 }
  else r

def step (r : Reference) (b : UInt8) : Reference :=
  match r.mode with
  | .text =>
    if b = 0x0a then r.newline
    else if b = 0x1b then { r with mode := .escape }
    else if 0x20 ≤ b ∧ b ≤ 0x7e then r.advance
    else if b < 0x20 ∧ b ≠ 0x08 then r.advance.advance
    else r
  | .escape => { r with mode := if b = 0x5b then .csi [none] else .text }
  | .csi params =>
    if 0x30 ≤ b ∧ b ≤ 0x39 then
      { r with mode := .csi (params.modify (params.length - 1) fun p => some (p.getD 0 * 10 + (b.toNat - 0x30))) }
    else if b = 0x3b then { r with mode := .csi (params ++ [none]) }
    else { r.csiFinal params b with mode := .text }

def run (r : Reference) : List UInt8 → Reference
  | [] => r
  | b :: rest => (r.step b).run rest

def Tame (r : Reference) (b : UInt8) : Prop :=
  (r.mode ≠ .text ∧ r.mode ≠ .escape →
    b ≠ 0x48 ∧ (0x41 ≤ b ∧ b ≤ 0x44 → param r.mode.params 0 1 + 80 < 2 ^ 31)) ∧
  ∀ p ∈ (r.step b).mode.params, p.getD 0 < 2 ^ 32

def TameRun : Reference → List UInt8 → Prop
  | _, [] => True
  | r, b :: rest => r.Tame b ∧ TameRun (r.step b) rest

end Reference

def ParserMatches (p : Parser) : Mode → Prop
  | .text => p.state = .ready
  | .escape => p.state = .escapeStart
  | .csi params => p.state = .csi ∧ p.csiArgs.map (Option.map UInt32.toNat) = params

def CursorAt (t : TextMode) (r : Reference) : Prop :=
  t.cursorCol.toNat = r.col ∧ t.cursorRow.toNat = r.row ∧ r.col ≤ 79 ∧ r.row ≤ 24

structure Matches (v : VTerm) (r : Reference) : Prop where
  cursor : CursorAt v.textModeState r
  parser : ParserMatches v.ansiParser r.mode

theorem cursorAtNewline {t : TextMode} {r : Reference} (buffer : Nat → UInt8) (cursor : CursorAt t r) :
    CursorAt (t.newline buffer).1 r.newline := by
  obtain ⟨-, row, -, rowLe⟩ := cursor
  rw [TextMode.newlineState]
  refine ⟨rfl, ?_, Nat.zero_le _, Nat.min_le_right _ _⟩
  simp only [Reference.newline, UInt8.lt_iff_toNat_lt]
  split
  · next below =>
    rw [UInt8.toNat_add]
    simp only [UInt8.reduceToNat] at below ⊢
    omega
  · next last =>
    simp only [UInt8.reduceToNat] at last
    omega

theorem cursorAtAdvance {t : TextMode} {r : Reference} (buffer : Nat → UInt8) (cursor : CursorAt t r) :
    CursorAt (t.advanceCursor buffer).1 r.advance := by
  rw [TextMode.advanceCursorState, Reference.advance]
  obtain ⟨col, row, colLe, rowLe⟩ := cursor
  by_cases below : t.cursorCol < 79
  · have inside : r.col < 79 := by simpa [UInt8.lt_iff_toNat_lt, col] using below
    rw [if_pos below, if_pos inside]
    refine ⟨?_, row, by simp; omega, rowLe⟩
    rw [UInt8.toNat_add]
    simp only [UInt8.reduceToNat]
    omega
  · have last : ¬ r.col < 79 := by simpa [UInt8.lt_iff_toNat_lt, col] using below
    rw [if_neg below, if_neg last]
    exact cursorAtNewline buffer ⟨col, row, colLe, rowLe⟩

theorem cursorAtWriteByte {t : TextMode} {r : Reference} (buffer : Nat → UInt8) (cursor : CursorAt t r) {byte : UInt8}
    (printable : 0x20 ≤ byte ∧ byte ≤ 0x7e) : CursorAt (t.writeByte buffer byte).1 r.advance := by
  have notNewline : byte ≠ 0x0a := by
    rintro rfl
    exact absurd printable.1 (by decide)
  rw [TextMode.writeByteState, if_neg notNewline, if_pos printable]
  exact cursorAtAdvance buffer cursor

theorem writeByteIgnored (t : TextMode) (buffer : Nat → UInt8) {byte : UInt8} (notNewline : byte ≠ 0x0a)
    (unprintable : ¬ (0x20 ≤ byte ∧ byte ≤ 0x7e)) : (t.writeByte buffer byte).1 = t := by
  rw [TextMode.writeByteState, if_neg notNewline, if_neg unprintable]

/-! ### The casts to `isize` -/

theorem toInt32ToInt {d : UInt32} (small : d.toNat < 2 ^ 31) : d.toInt32.toInt = d.toNat := by
  rw [show d.toInt32.toInt = d.toBitVec.toInt from rfl, BitVec.toInt_eq_toNat_of_lt (by simp; omega)]
  rfl

theorem forwardToInt {x : UInt8} {d : UInt32} (small : x.toNat + d.toNat < 2 ^ 31) :
    (x.toUInt32.toInt32 + d.toInt32).toInt = x.toNat + d.toNat := by
  rw [Int32.toInt_add, TextMode.byteToInt32, toInt32ToInt (by omega), Int.bmod_eq_of_le (by omega) (by omega)]

theorem backwardToInt {x : UInt8} {d : UInt32} (small : d.toNat < 2 ^ 31) :
    (x.toUInt32.toInt32 + d.toInt32 * -1).toInt = x.toNat - d.toNat := by
  have := x.toNat_lt
  have negated : (d.toInt32 * -1).toInt = -d.toNat := by
    rw [Int32.toInt_mul, toInt32ToInt small, show (-1 : Int32).toInt = -1 from rfl,
      Int.bmod_eq_of_le (by omega) (by omega)]
    omega
  rw [Int32.toInt_add, TextMode.byteToInt32, negated, Int.bmod_eq_of_le (by omega) (by omega)]
  omega

theorem stayToInt (x : UInt8) : (x.toUInt32.toInt32 + 0).toInt = x.toNat := by
  rw [Int32.add_zero, TextMode.byteToInt32]

theorem cursorAtMove {t : TextMode} {r : Reference} {dcol drow : Int32} {c w : Int}
    (colSum : (t.cursorCol.toUInt32.toInt32 + dcol).toInt = c) (rowSum : (t.cursorRow.toUInt32.toInt32 + drow).toInt = w)
    (col : r.col = if c < 0 then 0 else min c.toNat 79) (row : r.row = if w < 0 then 0 else min w.toNat 24) :
    CursorAt (t.moveCursorRelative dcol drow) r := by
  simp only [CursorAt, TextMode.moveCursorRelative, TextMode.clampCursorToNat, colSum, rowSum, UInt8.reduceToNat]
  exact ⟨col.symm, row.symm, by rw [col]; split <;> omega, by rw [row]; split <;> omega⟩

/-! ### The parser against the reference modes -/

theorem getCsiArgToNat (p : Parser) (index : Nat) (fallback : UInt32) :
    (p.getCsiArg index fallback).toNat = Reference.param (p.csiArgs.map (Option.map UInt32.toNat)) index fallback.toNat := by
  simp only [Parser.getCsiArg, Reference.param, List.getElem?_map]
  rcases p.csiArgs[index]? with _ | _ | val <;> rfl

theorem digitToNat {b : UInt8} (digit : 0x30 ≤ b ∧ b ≤ 0x39) : (b - 48).toUInt32.toNat = b.toNat - 0x30 := by
  rw [UInt8.toNat_toUInt32, UInt8.toNat_sub_of_le _ _ digit.1]
  rfl

theorem pushDigitToNat (args : List (Option UInt32)) (digit : UInt32)
    (below : ∀ p ∈ (args.map (Option.map UInt32.toNat)).modify (args.length - 1)
      (fun p => some (p.getD 0 * 10 + digit.toNat)), p.getD 0 < 2 ^ 32) :
    (Parser.pushDigit args digit).map (Option.map UInt32.toNat) =
      (args.map (Option.map UInt32.toNat)).modify (args.length - 1) fun p => some (p.getD 0 * 10 + digit.toNat) := by
  apply List.ext_getElem?
  intro j
  rw [List.getElem?_map, Parser.pushDigit, List.getElem?_modify, List.getElem?_modify, List.getElem?_map]
  rcases found : args[j]? with _ | slot
  · rfl
  · by_cases last : args.length - 1 = j
    · have atLast : ((args.map (Option.map UInt32.toNat)).modify (args.length - 1)
          (fun p => some (p.getD 0 * 10 + digit.toNat)))[j]? =
            some (some ((slot.map UInt32.toNat).getD 0 * 10 + digit.toNat)) := by
        rw [List.getElem?_modify, List.getElem?_map, found]
        simp [last]
      have small := below _ (List.mem_of_getElem? atLast)
      simp only [last, if_true, Option.map_some, Option.getD_some] at small ⊢
      rcases slot with _ | value
      · simp
      · simp only [Option.map_some, Option.getD_some] at small
        simp only [Option.map_eq_map, Option.map_some, Option.getD_some, UInt32.toNat_add, UInt32.toNat_mul,
          UInt32.reduceToNat, Option.some.injEq]
        omega
    · simp [last]

/-! ### One byte -/

theorem processCsi {p : Parser} (csi : p.state = .csi) (ch : UInt8) :
    p.processCharacter ch =
      if 0x30 ≤ ch ∧ ch ≤ 0x39 then ({ p with csiArgs := Parser.pushDigit p.csiArgs (ch - 48).toUInt32 }, .none)
      else if ch = 0x3b then ({ p with csiArgs := p.csiArgs ++ [none] }, .none)
      else ({ p with state := .ready }, p.csiFinal ch) := by
  simp only [Parser.processCharacter, csi, Parser.csiCharacter]
  split
  · rfl
  · split <;> rfl

theorem cursorAtSgr (v : VTerm) (memory : Nat → UInt8) (modifier : UInt32) {r : Reference}
    (cursor : CursorAt v.textModeState r) : CursorAt (v.performAction memory (sgrAction modifier)).1.textModeState r := by
  unfold sgrAction
  split <;> exact cursor

theorem cursorAtCsiFinalKeeps (v : VTerm) (memory : Nat → UInt8) (p : Parser) {b : UInt8} {r : Reference}
    (cursor : CursorAt v.textModeState r) (notMove : ¬ (0x41 ≤ b ∧ b ≤ 0x44)) (notH : b ≠ 0x48) :
    CursorAt (v.performAction memory (p.csiFinal b)).1.textModeState r := by
  unfold Parser.csiFinal
  split
  · exact absurd ⟨by decide, by decide⟩ notMove
  · exact absurd ⟨by decide, by decide⟩ notMove
  · exact absurd ⟨by decide, by decide⟩ notMove
  · exact absurd ⟨by decide, by decide⟩ notMove
  · exact cursor
  · exact cursor
  · exact cursor
  · exact absurd rfl notH
  · split <;> exact cursor
  · split <;> exact cursor
  · exact cursor
  · exact cursor
  · exact cursorAtSgr v memory _ cursor
  · exact cursor

theorem csiFinalStays (r : Reference) (params : List (Option Nat)) {b : UInt8} (notMove : ¬ (0x41 ≤ b ∧ b ≤ 0x44))
    (notH : b ≠ 0x48) : r.csiFinal params b = r := by
  have : b ≠ 0x41 ∧ b ≠ 0x42 ∧ b ≠ 0x43 ∧ b ≠ 0x44 := by
    refine ⟨?_, ?_, ?_, ?_⟩ <;> rintro rfl <;> exact notMove ⟨by decide, by decide⟩
  simp [Reference.csiFinal, this, notH]

theorem cursorAtCsiFinal (v : VTerm) (memory : Nat → UInt8) (p : Parser) {b : UInt8} {r : Reference}
    (cursor : CursorAt v.textModeState r) (notH : b ≠ 0x48)
    (small : 0x41 ≤ b ∧ b ≤ 0x44 → Reference.param (p.csiArgs.map (Option.map UInt32.toNat)) 0 1 + 80 < 2 ^ 31) :
    CursorAt (v.performAction memory (p.csiFinal b)).1.textModeState
      (r.csiFinal (p.csiArgs.map (Option.map UInt32.toNat)) b) := by
  have delta : (p.getCsiArg 0 1).toNat = Reference.param (p.csiArgs.map (Option.map UInt32.toNat)) 0 1 :=
    getCsiArgToNat p 0 1
  obtain ⟨col, row, colLe, rowLe⟩ := cursor
  by_cases move : 0x41 ≤ b ∧ b ≤ 0x44
  · have bound := small move
    rw [← delta] at bound
    have cases : b = 0x41 ∨ b = 0x42 ∨ b = 0x43 ∨ b = 0x44 := by
      have := UInt8.le_iff_toNat_le.mp move.1
      have := UInt8.le_iff_toNat_le.mp move.2
      simp only [UInt8.reduceToNat] at *
      rcases (by omega : b.toNat = 0x41 ∨ b.toNat = 0x42 ∨ b.toNat = 0x43 ∨ b.toNat = 0x44) with e | e | e | e <;>
        simp [← UInt8.toNat_inj, e]
    rcases cases with rfl | rfl | rfl | rfl
    · rw [show r.csiFinal _ 0x41 = { r with row := r.row - (p.getCsiArg 0 1).toNat } by
        simp [Reference.csiFinal, ← delta]]
      exact cursorAtMove (stayToInt _) (backwardToInt (by omega)) (by dsimp only; split <;> omega)
        (by dsimp only; split <;> omega)
    · rw [show r.csiFinal _ 0x42 = { r with row := min (r.row + (p.getCsiArg 0 1).toNat) 24 } by
        simp [Reference.csiFinal, ← delta]]
      exact cursorAtMove (stayToInt _) (forwardToInt (by omega)) (by dsimp only; split <;> omega)
        (by dsimp only; split <;> omega)
    · rw [show r.csiFinal _ 0x43 = { r with col := min (r.col + (p.getCsiArg 0 1).toNat) 79 } by
        simp [Reference.csiFinal, ← delta]]
      exact cursorAtMove (forwardToInt (by omega)) (stayToInt _) (by dsimp only; split <;> omega)
        (by dsimp only; split <;> omega)
    · rw [show r.csiFinal _ 0x44 = { r with col := r.col - (p.getCsiArg 0 1).toNat } by
        simp [Reference.csiFinal, ← delta]]
      exact cursorAtMove (backwardToInt (by omega)) (stayToInt _) (by dsimp only; split <;> omega)
        (by dsimp only; split <;> omega)
  · rw [csiFinalStays _ _ move notH]
    exact cursorAtCsiFinalKeeps v memory p ⟨col, row, colLe, rowLe⟩ move notH

theorem cursorAtWriteCharacter {v : VTerm} {r : Reference} (memory : Nat → UInt8) (cursor : CursorAt v.textModeState r)
    {ch : UInt8} (notNewline : ch ≠ 0x0a) :
    CursorAt (v.writeCharacter memory ch).1.textModeState
      (if ch < 0x20 then r.advance.advance else if ch ≤ 0x7e then r.advance else r) := by
  rw [VTerm.writeCharacterEq, if_neg notNewline]
  by_cases control : ch < 0x20
  · have shifted : 0x20 ≤ ch + 0x40 ∧ ch + 0x40 ≤ 0x7e := by
      simp only [UInt8.le_iff_toNat_le, UInt8.lt_iff_toNat_lt, UInt8.toNat_add, UInt8.reduceToNat] at control ⊢
      omega
    rw [if_pos control, if_pos control, VTerm.textOpState, VTerm.textOpState]
    exact cursorAtWriteByte _ (cursorAtWriteByte _ cursor ⟨by decide, by decide⟩) shifted
  · rw [if_neg control, if_neg control]
    have printable : 0x20 ≤ ch := by
      simpa [UInt8.le_iff_toNat_le, UInt8.lt_iff_toNat_lt] using control
    by_cases below : ch ≤ 0x7e
    · rw [if_pos below, VTerm.textOpState]
      exact cursorAtWriteByte _ cursor ⟨printable, below⟩
    · rw [if_neg below, VTerm.textOpState]
      show CursorAt (v.textModeState.writeByte _ ch).1 r
      rw [writeByteIgnored _ _ notNewline fun inside => below inside.2]
      exact cursor

theorem sendCharacterText {v : VTerm} {r : Reference} (memory : Nat → UInt8) (b : UInt8)
    (cursor : CursorAt v.textModeState r) (ready : v.ansiParser.state = .ready) (text : r.mode = .text) :
    Matches (v.sendCharacter memory b).1 (r.step b) := by
  have stays : ∀ r' : Reference, r'.mode = .text → ParserMatches v.ansiParser r'.mode := fun r' same => by
    rw [same]
    exact ready
  simp only [VTerm.sendCharacter, Parser.processCharacter, ready]
  split
  · rw [show r.step 0x08 = r by simp [Reference.step, text]]
    exact ⟨cursor, stays r text⟩
  · rw [show r.step 0x0a = r.newline by simp [Reference.step, text]]
    exact ⟨cursorAtNewline _ cursor, stays _ text⟩
  · rw [show r.step 0x1b = { r with mode := .escape } by simp [Reference.step, text]]
    exact ⟨cursor, rfl⟩
  · rw [show r.step 0x7f = r by simp [Reference.step, text]]
    exact ⟨cursor, stays r text⟩
  · next notBackspace notNewline notEscape _ =>
    dsimp only
    rw [show (⟨v.videoMode, v.memoryBackups, v.textModeState, v.ansiParser⟩ : VTerm) = v from rfl]
    have backspace : b ≠ 0x08 := notBackspace
    have newline : b ≠ 0x0a := notNewline
    have escape : b ≠ 0x1b := notEscape
    have printed := cursorAtWriteCharacter memory cursor newline
    have parser : ∀ r' : Reference, r'.mode = .text →
        ParserMatches (v.performAction memory (.print b)).1.ansiParser r'.mode := by
      intro r' same
      rw [VTerm.performActionParser]
      exact stays r' same
    by_cases control : b < 0x20
    · rw [if_pos control] at printed
      have same : r.step b = r.advance.advance := by
        simp [Reference.step, text, newline, escape, control, backspace,
          show ¬ 0x20 ≤ b from fun above => absurd control (UInt8.not_lt.mpr above)]
      rw [same]
      exact ⟨printed, parser _ (by rw [Reference.advanceMode, Reference.advanceMode, text])⟩
    · rw [if_neg control] at printed
      by_cases below : b ≤ 0x7e
      · rw [if_pos below] at printed
        have same : r.step b = r.advance := by
          simp [Reference.step, text, newline, escape, below, UInt8.not_lt.mp control]
        rw [same]
        exact ⟨printed, parser _ (by rw [Reference.advanceMode, text])⟩
      · rw [if_neg below] at printed
        have same : r.step b = r := by
          simp [Reference.step, text, newline, escape, below, control]
        rw [same]
        exact ⟨printed, parser r text⟩

theorem sendCharacterEscape {v : VTerm} {r : Reference} (memory : Nat → UInt8) (b : UInt8)
    (cursor : CursorAt v.textModeState r) (escape : v.ansiParser.state = .escapeStart) (mode : r.mode = .escape) :
    Matches (v.sendCharacter memory b).1 (r.step b) := by
  simp only [VTerm.sendCharacter, Parser.processCharacter, escape]
  split
  · rw [show r.step 0x5b = { r with mode := .csi [none] } by simp [Reference.step, mode]]
    exact ⟨cursor, rfl, rfl⟩
  · next notBracket =>
    have bracket : b ≠ 0x5b := notBracket
    rw [show r.step b = { r with mode := .text } by simp [Reference.step, mode, bracket]]
    exact ⟨cursor, rfl⟩

theorem sendCharacterCsi {v : VTerm} {r : Reference} (memory : Nat → UInt8) (b : UInt8)
    (cursor : CursorAt v.textModeState r) (csi : v.ansiParser.state = .csi)
    (mode : r.mode = .csi (v.ansiParser.csiArgs.map (Option.map UInt32.toNat))) (tame : r.Tame b) :
    Matches (v.sendCharacter memory b).1 (r.step b) := by
  obtain ⟨final, below⟩ := tame
  rw [mode] at final
  obtain ⟨notH, small⟩ := final ⟨nofun, nofun⟩
  simp only [VTerm.sendCharacter, processCsi csi]
  by_cases digit : 0x30 ≤ b ∧ b ≤ 0x39
  · have same : r.step b = { r with mode := .csi ((v.ansiParser.csiArgs.map (Option.map UInt32.toNat)).modify
        (v.ansiParser.csiArgs.length - 1) fun p => some (p.getD 0 * 10 + (b.toNat - 0x30))) } := by
      simp [Reference.step, mode, digit]
    rw [← digitToNat digit] at same
    rw [if_pos digit, same]
    rw [same] at below
    exact ⟨cursor, csi, pushDigitToNat _ _ below⟩
  · rw [if_neg digit]
    by_cases semicolon : b = 0x3b
    · rw [if_pos semicolon, show r.step b = { r with mode := .csi (v.ansiParser.csiArgs.map (Option.map UInt32.toNat) ++
          [none]) } by simp [Reference.step, mode, semicolon]]
      exact ⟨cursor, csi, by rw [VTerm.performActionParser]; simp⟩
    · rw [if_neg semicolon, show r.step b = { r.csiFinal (v.ansiParser.csiArgs.map (Option.map UInt32.toNat)) b with
          mode := .text } by simp [Reference.step, mode, digit, semicolon]]
      exact ⟨cursorAtCsiFinal _ memory v.ansiParser cursor notH small, by rw [VTerm.performActionParser]; rfl⟩

theorem sendCharacterMatches {v : VTerm} {r : Reference} (memory : Nat → UInt8) (b : UInt8) (matched : Matches v r)
    (tame : r.Tame b) : Matches (v.sendCharacter memory b).1 (r.step b) := by
  obtain ⟨cursor, parser⟩ := matched
  rcases r with ⟨_ | _ | params, col, row⟩
  · exact sendCharacterText memory b cursor parser rfl
  · exact sendCharacterEscape memory b cursor parser rfl
  · obtain ⟨csi, args⟩ := parser
    subst args
    exact sendCharacterCsi memory b cursor csi rfl tame

theorem sendCharactersMatches {v : VTerm} {r : Reference} (memory : Nat → UInt8) (bytes : List UInt8)
    (matched : Matches v r) (tame : r.TameRun bytes) : Matches (v.sendCharacters memory bytes).1 (r.run bytes) := by
  induction bytes generalizing v r memory with
  | nil => exact matched
  | cons b rest ih => exact ih _ (sendCharacterMatches memory b matched tame.1) tame.2

theorem freshMatches (mode : UInt8) (bufferFrame mappedTo : UInt32) :
    Matches (VTerm.withVideoMode mode bufferFrame mappedTo) ⟨.text, 0, 24⟩ :=
  ⟨⟨rfl, rfl, by decide, by decide⟩, rfl⟩

theorem sendCharactersMisplacesCursor :
    (∀ (v : VTerm) (memory : Nat → UInt8) (r : Reference) (bytes : List UInt8), Matches v r → r.TameRun bytes →
      Matches (v.sendCharacters memory bytes).1 (r.run bytes)) ∧
      Matches (VTerm.withVideoMode 3 0x200000 0xd0000000) ⟨.text, 0, 24⟩ ∧
      ((VTerm.withVideoMode 3 0x200000 0xd0000000).sendCharacters (fun _ => 0)
        [0x1b, 0x5b, 0x35, 0x3b, 0x31, 0x30, 0x48]).1.textModeState.cursorCol = 5 ∧
      ((VTerm.withVideoMode 3 0x200000 0xd0000000).sendCharacters (fun _ => 0)
        [0x1b, 0x5b, 0x35, 0x3b, 0x31, 0x30, 0x48]).1.textModeState.cursorRow = 10 ∧
      (⟨.text, 0, 24⟩ : Reference).run [0x1b, 0x5b, 0x35, 0x3b, 0x31, 0x30, 0x48] = ⟨.text, 9, 4⟩ ∧
      ((VTerm.withVideoMode 3 0x200000 0xd0000000).sendCharacters (fun _ => 0)
        [0x1b, 0x5b, 0x32, 0x31, 0x34, 0x37, 0x34, 0x38, 0x33, 0x36, 0x34, 0x38, 0x43]).1.textModeState.cursorCol = 0 ∧
      (⟨.text, 0, 24⟩ : Reference).run [0x1b, 0x5b, 0x32, 0x31, 0x34, 0x37, 0x34, 0x38, 0x33, 0x36, 0x34, 0x38, 0x43] =
        ⟨.text, 79, 24⟩ :=
  ⟨fun _ memory _ bytes matched tame => sendCharactersMatches memory bytes matched tame, freshMatches 3 _ _,
    by decide, by decide, by decide, by decide, by decide⟩

end ImmDosNx.Ansi
