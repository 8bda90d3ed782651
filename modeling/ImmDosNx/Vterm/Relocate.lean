import ImmDosNx.Vterm.VTerm

/-! A terminal's writer reads and writes only the 4000 bytes from its buffer pointer
and never looks at the pointer itself. So a terminal whose pointer is at `home`
behaves as the same terminal run alone on a private screen at offset 0, and leaves
every byte outside its window as it was. This is what lets `make_inactive` and
`make_active` move a terminal between VGA memory and its backup page. -/
namespace ImmDosNx.Vterm

open Vga Tty

theorem viewZero (memory : Nat → UInt8) : view memory 0 = memory := by
  funext o
  simp [view]

theorem viewUpdate (memory : Nat → UInt8) (base : UInt32) (offset : Nat) (value : UInt8) :
    view (Function.update memory (base.toNat + offset) value) base = Function.update (view memory base) offset value := by
  funext o
  by_cases same : o = offset
  · subst same
    simp [view]
  · have apart : base.toNat + o ≠ base.toNat + offset := by omega
    simp [view, Function.update_of_ne apart, Function.update_of_ne same]

theorem viewStore (memory : Nat → UInt8) (base : UInt32) (writes : List Write) :
    view (store memory base writes) base = applyWrites (view memory base) writes := by
  induction writes generalizing memory with
  | nil => rfl
  | cons w rest ih =>
    show view (store (Function.update memory (base.toNat + w.offset) w.value) base rest) base =
      applyWrites (Function.update (view memory base) w.offset w.value) rest
    rw [ih, viewUpdate]

theorem storeZero (page : Nat → UInt8) (writes : List Write) : store page 0 writes = applyWrites page writes := by
  have moved := viewStore page 0 writes
  rwa [viewZero, viewZero] at moved

theorem storeMissed (memory : Nat → UInt8) (base : UInt32) {writes : List Write} {a : Nat}
    (missed : ∀ w ∈ writes, base.toNat + w.offset ≠ a) : store memory base writes a = memory a := by
  induction writes generalizing memory with
  | nil => rfl
  | cons w rest ih =>
    show store (Function.update memory (base.toNat + w.offset) w.value) base rest a = memory a
    rw [ih _ fun w' mem => missed w' (List.mem_cons_of_mem w mem)]
    exact Function.update_of_ne (missed w List.mem_cons_self).symm _ _

def Outside (base : UInt32) (size a : Nat) : Prop := a < base.toNat ∨ base.toNat + size ≤ a

def Frame (base : UInt32) (size : Nat) (memory memory' : Nat → UInt8) : Prop :=
  ∀ a, Outside base size a → memory' a = memory a

def Apart (x y : UInt32) : Prop := x.toNat + 0x1000 ≤ y.toNat ∨ y.toNat + 0x1000 ≤ x.toNat

theorem apartSymm {x y : UInt32} (apart : Apart x y) : Apart y x := apart.symm

theorem frameTrans {base : UInt32} {size : Nat} {m₁ m₂ m₃ : Nat → UInt8} (first : Frame base size m₁ m₂)
    (second : Frame base size m₂ m₃) : Frame base size m₁ m₃ :=
  fun a outside => (second a outside).trans (first a outside)

theorem frameApart {base home : UInt32} {size : Nat} {memory memory' : Nat → UInt8} (frame : Frame base size memory memory')
    (small : size ≤ 0x1000) (apart : Apart base home) : ∀ o < 4000, memory' (home.toNat + o) = memory (home.toNat + o) :=
  fun o inside => frame _ (by unfold Apart at apart; unfold Outside; omega)

theorem copyPageInside (memory : Nat → UInt8) (dest src : UInt32) {o : Nat} (inside : o < 0x1000) :
    copyPage memory dest src (dest.toNat + o) = memory (src.toNat + o) := by
  simp [copyPage, inside]

theorem copyPageFrame (memory : Nat → UInt8) (dest src : UInt32) : Frame dest 0x1000 memory (copyPage memory dest src) := by
  intro a outside
  unfold Outside at outside
  have notInside : ¬ (dest.toNat ≤ a ∧ a < dest.toNat + 0x1000) := by omega
  simp [copyPage, notInside]

/-- Here `write_volatile` of a `u16`, low byte first. -/
def writeU16 (memory : Nat → UInt8) (address : Nat) (value : UInt16) : Nat → UInt8 :=
  Function.update (Function.update memory address value.toUInt8) (address + 1) (value >>> 8).toUInt8

theorem viewWriteU16 (memory : Nat → UInt8) (base : UInt32) (value : UInt16) :
    view (writeU16 memory base.toNat value) base = writeU16 (view memory base) 0 value := by
  unfold writeU16
  rw [← viewUpdate, ← viewUpdate]
  simp only [Nat.add_zero, Nat.zero_add]

theorem writeU16Frame (memory : Nat → UInt8) (base : UInt32) (value : UInt16) :
    Frame base 2 memory (writeU16 memory base.toNat value) := by
  intro a outside
  unfold Outside at outside
  have low : a ≠ base.toNat := by omega
  have high : a ≠ base.toNat + 1 := by omega
  simp [writeU16, Function.update_of_ne low, Function.update_of_ne high]

theorem agreeWriteU16 {b₁ b₂ : Nat → UInt8} (agree : Agree b₁ b₂) (value : UInt16) :
    Agree (writeU16 b₁ 0 value) (writeU16 b₂ 0 value) := by
  intro o inside
  by_cases high : o = 1
  · simp [writeU16, high]
  · by_cases low : o = 0
    · simp [writeU16, low]
    · simp [writeU16, Function.update_of_ne high, Function.update_of_ne low, agree o inside]

namespace VTerm

def pointedAt (v : VTerm) (home : UInt32) : VTerm := { v with textModeState := { v.textModeState with basePointer := home } }

theorem textOpEq (v : VTerm) (memory : Nat → UInt8) (op : Op) :
    v.textOp memory op = ({ v with textModeState := (v.textModeState.perform (view memory v.textModeState.basePointer) op).1 },
      store memory v.textModeState.basePointer (v.textModeState.perform (view memory v.textModeState.basePointer) op).2) :=
  rfl

end VTerm

structure Shows (home : UInt32) (v : VTerm) (memory : Nat → UInt8) (alone : VTerm) (page : Nat → UInt8) : Prop where
  pointed : v = alone.pointedAt home
  atZero : alone.textModeState.basePointer = 0
  screen : Agree (view memory home) page
  onScreen : OnScreen alone.textModeState

theorem showsFrame {home : UInt32} {v alone : VTerm} {memory memory' page : Nat → UInt8}
    (shows : Shows home v memory alone page) (same : ∀ o < 4000, memory' (home.toNat + o) = memory (home.toNat + o)) :
    Shows home v memory' alone page :=
  ⟨shows.pointed, shows.atZero, fun o inside => (same o inside).trans (shows.screen o inside), shows.onScreen⟩

def Keeps (v w : VTerm) : Prop := w.videoMode = v.videoMode ∧ w.memoryBackups = v.memoryBackups

def Relocatable (f : VTerm → (Nat → UInt8) → VTerm × (Nat → UInt8)) : Prop :=
  ∀ {home v memory alone page}, Shows home v memory alone page →
    Shows home (f v memory).1 (f v memory).2 (f alone page).1 (f alone page).2 ∧ Frame home 4000 memory (f v memory).2 ∧
      Keeps alone (f alone page).1

theorem Relocatable.seq {f g : VTerm → (Nat → UInt8) → VTerm × (Nat → UInt8)} (first : Relocatable f)
    (second : Relocatable g) : Relocatable fun v memory => g (f v memory).1 (f v memory).2 := by
  intro home v memory alone page shows
  obtain ⟨shows₁, frame₁, keeps₁⟩ := first shows
  obtain ⟨shows₂, frame₂, keeps₂⟩ := second shows₁
  exact ⟨shows₂, frameTrans frame₁ frame₂, keeps₂.1.trans keeps₁.1, keeps₂.2.trans keeps₁.2⟩

theorem pureRelocatable {f : VTerm → VTerm} (moved : ∀ v home, f (v.pointedAt home) = (f v).pointedAt home)
    (keeps : ∀ v, (f v).textModeState.basePointer = v.textModeState.basePointer ∧
      (OnScreen v.textModeState → OnScreen (f v).textModeState) ∧ Keeps v (f v)) :
    Relocatable fun v memory => (f v, memory) := by
  intro home v memory alone page shows
  obtain ⟨rfl, atZero, screen, onScreen⟩ := shows
  obtain ⟨pointer, cursor, same⟩ := keeps alone
  exact ⟨⟨moved alone home, pointer.trans atZero, screen, cursor onScreen⟩, fun _ _ => rfl, same⟩

theorem stayRelocatable : Relocatable fun v memory => (v, memory) :=
  @pureRelocatable id (fun _ _ => rfl) fun _ => ⟨rfl, id, rfl, rfl⟩

theorem textOpRelocatable (op : Op) : Relocatable fun v memory => v.textOp memory op := by
  intro home v memory alone page shows
  obtain ⟨rfl, atZero, screen, onScreen⟩ := shows
  have reads : alone.textModeState.perform (view memory home) op = alone.textModeState.perform page op :=
    TextMode.performAgree _ screen op
  have atPage : view page alone.textModeState.basePointer = page := by rw [atZero, viewZero]
  let after := alone.textModeState.perform page op
  have atHome : (alone.pointedAt home).textOp memory op =
      ({ alone with textModeState := after.1 }.pointedAt home, store memory home after.2) := by
    show ({ alone.pointedAt home with textModeState := ({ alone.textModeState with basePointer := home }.perform
      (view memory home) op).1 }, store memory home ({ alone.textModeState with basePointer := home }.perform
      (view memory home) op).2) = _
    rw [TextMode.performPointer, reads]
    rfl
  have aloneStep : alone.textOp page op = ({ alone with textModeState := after.1 }, applyWrites page after.2) := by
    rw [VTerm.textOpEq, atPage, atZero, storeZero]
  dsimp only
  rw [atHome, aloneStep]
  refine ⟨⟨rfl, (TextMode.performBasePointer alone.textModeState page op).trans atZero, ?_,
    TextMode.onScreenPerform page onScreen op⟩, ?_, rfl, rfl⟩
  · rw [viewStore]
    exact agreeApplyWrites screen _
  · intro a outside
    refine storeMissed memory home fun w mem => ?_
    have below := TextMode.writesBelow onScreen page op w mem
    unfold Outside at outside
    omega

theorem writeCharacterRelocatable (ch : UInt8) : Relocatable fun v memory => v.writeCharacter memory ch := by
  by_cases newline : ch = 0x0a
  · simp only [VTerm.writeCharacterEq, newline, if_true]
    exact textOpRelocatable _
  · by_cases control : ch < 0x20
    · simp only [VTerm.writeCharacterEq, newline, control, if_true, if_false]
      exact Relocatable.seq (textOpRelocatable _) (textOpRelocatable _)
    · simp only [VTerm.writeCharacterEq, newline, control, if_false]
      exact textOpRelocatable _

theorem recolorRelocatable (recolor : TextMode → TextMode) (pointer : ∀ t, recolor t = { t with currentColor := (recolor t).currentColor })
    (independent : ∀ t home, (recolor { t with basePointer := home }).currentColor = (recolor t).currentColor) :
    Relocatable fun v memory => ({ v with textModeState := recolor v.textModeState }, memory) := by
  refine @pureRelocatable (fun v => { v with textModeState := recolor v.textModeState }) (fun v home => ?_) fun v => ?_
  · show { v.pointedAt home with textModeState := recolor { v.textModeState with basePointer := home } } =
      { v with textModeState := recolor v.textModeState }.pointedAt home
    rw [pointer { v.textModeState with basePointer := home }, independent, pointer v.textModeState]
    rfl
  · rw [pointer v.textModeState]
    exact ⟨rfl, id, rfl, rfl⟩

theorem performActionRelocatable (action : TTYAction) : Relocatable fun v memory => v.performAction memory action := by
  cases action with
  | print ch => exact writeCharacterRelocatable ch
  | newLine => exact textOpRelocatable .newline
  | moveCursor dx dy => exact textOpRelocatable (.moveCursorRelative dx dy)
  | setPosition col row => exact textOpRelocatable (.moveCursor col.toUInt8 row.toUInt8)
  | clearScreen => exact textOpRelocatable .clearScreen
  | clearToBeginning => exact textOpRelocatable .clearScreenToBeginning
  | clearToEnd => exact textOpRelocatable .clearScreenToEnd
  | clearRow => exact textOpRelocatable .clearRow
  | clearRowToBeginning => exact textOpRelocatable .clearRowToBeginning
  | clearRowToEnd => exact textOpRelocatable .clearRowToEnd
  | scrollUp lines => exact textOpRelocatable (.scroll lines.toUInt8)
  | resetColors => exact recolorRelocatable TextMode.resetColors (fun _ => rfl) fun _ _ => rfl
  | setFgColor fg => exact recolorRelocatable (TextMode.setFgColor · fg) (fun _ => rfl) fun _ _ => rfl
  | setBgColor bg => exact recolorRelocatable (TextMode.setBgColor · bg) (fun _ => rfl) fun _ _ => rfl
  | _ => exact stayRelocatable

theorem sendCharacterRelocatable (ch : UInt8) : Relocatable fun v memory => v.sendCharacter memory ch := by
  intro home v memory alone page shows
  obtain ⟨rfl, atZero, screen, onScreen⟩ := shows
  let parsed := alone.ansiParser.processCharacter ch
  have moved : Shows home ({ alone with ansiParser := parsed.1 }.pointedAt home) memory { alone with ansiParser := parsed.1 } page :=
    ⟨rfl, atZero, screen, onScreen⟩
  exact performActionRelocatable parsed.2 moved

theorem sendCharactersRelocatable (chars : List UInt8) : Relocatable fun v memory => v.sendCharacters memory chars := by
  induction chars with
  | nil => exact stayRelocatable
  | cons ch rest ih => exact Relocatable.seq (sendCharacterRelocatable ch) ih

end ImmDosNx.Vterm
