import ImmDosNx.Vterm.Relocate

/-! The terminal router (`vterm/router.rs`) and what switching terminals is for. The
router holds the terminals and the index of the one on screen. Only that one should
write to VGA text memory at `0xc00b8000`, every other one to its backup page. The
abstract `Screens` gives every terminal a screen of its own that only its own writes
change, and the router only picks which one is shown. The router refines it on every
switch to a terminal that exists and whose video mode the driver then reports. But
`set_active_vterm` parks the current terminal before it looks the new one up, so a
switch that fails leaves no terminal writing to VGA memory, including the one the
router still names. The key state and `send_key_action` are left out: its key
bindings only call `set_active_vterm`. -/
namespace ImmDosNx.Vterm

open Vga Tty

structure VTermRouter where
  vtermList : List VTerm
  activeVterm : Nat
  deriving DecidableEq, Repr

def firstCell (active : Nat) : UInt16 := ((active &&& 0xff) + 48).toUInt16 ||| (colorCode .white .black).toUInt16 <<< 8

inductive Call
  | setActiveVterm (active : Nat) (currentMode : UInt8)
  | sendCharacters (index : Nat) (chars : List UInt8)

namespace VTermRouter

/-- The terminals of the loop of `new`: terminal `i` gets the frame and kernel page `allocations[i]` from
`MemoryBackup::allocate`, and the last one is in mode 0x13. -/
def terminals (allocations : List (UInt32 × UInt32)) : List VTerm :=
  allocations.mapIdx fun i allocation =>
    VTerm.withVideoMode (if i = allocations.length - 1 then 0x13 else 0x03) allocation.1 allocation.2

def new (allocations : List (UInt32 × UInt32)) (memory : Nat → UInt8) : VTermRouter × (Nat → UInt8) :=
  match terminals allocations with
  | [] => (⟨[], 0⟩, memory)
  | first :: rest =>
    let (first, memory) := first.makeInitial.scroll memory 2
    (⟨first :: rest, 0⟩, memory)

/-- Here `currentMode` is what `get_video_mode` reports once the driver has answered the request. -/
def setActiveVterm (r : VTermRouter) (memory : Nat → UInt8) (active : Nat) (currentMode : UInt8) :
    VTermRouter × (Nat → UInt8) :=
  match r.vtermList[r.activeVterm]? with
  | none => (r, memory)
  | some current =>
    let (current, memory) := current.makeInactive memory
    let vtermList := r.vtermList.set r.activeVterm current
    match vtermList[active]? with
    | none => ({ r with vtermList }, memory)
    | some next =>
      let videoMode := next.videoMode
      if videoMode ≠ currentMode then (⟨vtermList, active⟩, memory)
      else
        let (next, memory) := next.makeActive memory
        let memory := if videoMode = 0x03 then writeU16 memory 0xc00b8000 (firstCell active) else memory
        (⟨vtermList.set active next, active⟩, memory)

/-- Here `send_characters` on terminal `index`, as `process_buffers` and `write_to_console` call it. -/
def sendCharacters (r : VTermRouter) (memory : Nat → UInt8) (index : Nat) (chars : List UInt8) :
    VTermRouter × (Nat → UInt8) :=
  match r.vtermList[index]? with
  | none => (r, memory)
  | some v =>
    let (v, memory) := v.sendCharacters memory chars
    ({ r with vtermList := r.vtermList.set index v }, memory)

def step (r : VTermRouter) (memory : Nat → UInt8) : Call → VTermRouter × (Nat → UInt8)
  | .setActiveVterm active currentMode => r.setActiveVterm memory active currentMode
  | .sendCharacters index chars => r.sendCharacters memory index chars

def run (r : VTermRouter) (memory : Nat → UInt8) : List Call → VTermRouter × (Nat → UInt8)
  | [] => (r, memory)
  | call :: rest =>
    let (r, memory) := r.step memory call
    r.run memory rest

variable {r : VTermRouter} {memory m₁ m₂ : Nat → UInt8} {v v' next next' : VTerm} {active : Nat} {currentMode : UInt8}

theorem setActiveVtermSwitches (current : r.vtermList[r.activeVterm]? = some v) (parked : v.makeInactive memory = (v', m₁))
    (found : (r.vtermList.set r.activeVterm v')[active]? = some next) (reported : next.videoMode = currentMode)
    (activated : next.makeActive m₁ = (next', m₂)) :
    r.setActiveVterm memory active currentMode =
      (⟨(r.vtermList.set r.activeVterm v').set active next', active⟩,
        if currentMode = 0x03 then writeU16 m₂ 0xc00b8000 (firstCell active) else m₂) := by
  simp [setActiveVterm, current, parked, found, reported, activated]

theorem setActiveVtermMissing (current : r.vtermList[r.activeVterm]? = some v) (parked : v.makeInactive memory = (v', m₁))
    (missing : (r.vtermList.set r.activeVterm v')[active]? = none) :
    r.setActiveVterm memory active currentMode = (⟨r.vtermList.set r.activeVterm v', r.activeVterm⟩, m₁) := by
  simp [setActiveVterm, current, parked, missing]

theorem setActiveVtermRefused (current : r.vtermList[r.activeVterm]? = some v) (parked : v.makeInactive memory = (v', m₁))
    (found : (r.vtermList.set r.activeVterm v')[active]? = some next) (refused : next.videoMode ≠ currentMode) :
    r.setActiveVterm memory active currentMode = (⟨r.vtermList.set r.activeVterm v', active⟩, m₁) := by
  simp [setActiveVterm, current, parked, found, refused]

theorem newOfTerminals {allocations : List (UInt32 × UInt32)} {first : VTerm} {rest : List VTerm}
    (split : terminals allocations = first :: rest) :
    new allocations memory = (⟨(first.makeInitial.scroll memory 2).1 :: rest, 0⟩, (first.makeInitial.scroll memory 2).2) := by
  simp only [new, split]

theorem terminalAt {allocations : List (UInt32 × UInt32)} {i : Nat} {allocation : UInt32 × UInt32}
    (found : allocations[i]? = some allocation) :
    (terminals allocations)[i]? =
      some (VTerm.withVideoMode (if i = allocations.length - 1 then 0x13 else 0x03) allocation.1 allocation.2) := by
  simp [terminals, found]

theorem sendCharactersSends {index : Nat} {chars : List UInt8} (found : r.vtermList[index]? = some v) :
    r.sendCharacters memory index chars =
      (⟨r.vtermList.set index (v.sendCharacters memory chars).1, r.activeVterm⟩, (v.sendCharacters memory chars).2) := by
  simp [sendCharacters, found]

end VTermRouter

structure Screens where
  active : Nat
  terms : List (VTerm × (Nat → UInt8))

namespace Screens

def step (s : Screens) : Call → Screens
  | .setActiveVterm active _ =>
    match s.terms[active]? with
    | none => s
    | some (term, page) =>
      ⟨active, s.terms.set active (term, if term.videoMode = 0x03 then writeU16 page 0 (firstCell active) else page)⟩
  | .sendCharacters index chars =>
    match s.terms[index]? with
    | none => s
    | some (term, page) => { s with terms := s.terms.set index (term.sendCharacters page chars) }

def new (allocations : List (UInt32 × UInt32)) (memory : Nat → UInt8) : Screens :=
  ⟨0, (VTermRouter.terminals allocations).mapIdx fun i v =>
    if i = 0 then (v.pointedAt 0).scroll (view memory 0xc00b8000) 2 else (v.pointedAt 0, view memory v.textModeState.basePointer)⟩

def run (s : Screens) : List Call → Screens
  | [] => s
  | call :: rest => (s.step call).run rest

def Valid (s : Screens) : Call → Prop
  | .setActiveVterm active currentMode => ∃ screen, s.terms[active]? = some screen ∧ screen.1.videoMode = currentMode
  | .sendCharacters _ _ => True

def ValidRun (s : Screens) : List Call → Prop
  | [] => True
  | call :: rest => s.Valid call ∧ (s.step call).ValidRun rest

end Screens

def home (shown : Option Nat) (i : Nat) (page : UInt32) : UInt32 := if shown = some i then 0xc00b8000 else page

/-- The backups of `with_video_mode`: one, for the text page at 0xb8000. -/
def textBackups (bufferFrame mappedTo : UInt32) : List (Option MemoryBackup) :=
  (List.replicate 32 none).set ((0xb8000 - 0xa0000) / 0x1000) (some ⟨0xb8000, bufferFrame, mappedTo⟩)

def Hosts (shown : Option Nat) (memory : Nat → UInt8) (i : Nat) (v : VTerm) (screen : VTerm × (Nat → UInt8))
    (allocation : UInt32 × UInt32) : Prop :=
  screen.1.memoryBackups = textBackups allocation.1 allocation.2 ∧ Shows (home shown i allocation.2) v memory screen.1 screen.2

structure Displays (allocations : List (UInt32 × UInt32)) (shown : Option Nat) (vterms : List VTerm) (memory : Nat → UInt8)
    (terms : List (VTerm × (Nat → UInt8))) : Prop where
  length : vterms.length = allocations.length
  screens : terms.length = allocations.length
  hosts : ∀ {i v screen allocation}, vterms[i]? = some v → terms[i]? = some screen → allocations[i]? = some allocation →
    Hosts shown memory i v screen allocation

structure Separate (allocations : List (UInt32 × UInt32)) : Prop where
  apart : ∀ {i j : Nat} {p q : UInt32 × UInt32}, allocations[i]? = some p → allocations[j]? = some q → i ≠ j → Apart p.2 q.2
  offScreen : ∀ {i : Nat} {p : UInt32 × UInt32}, allocations[i]? = some p → Apart p.2 0xc00b8000

structure Refines (allocations : List (UInt32 × UInt32)) (r : VTermRouter) (memory : Nat → UInt8) (s : Screens) : Prop where
  active : r.activeVterm = s.active
  named : s.active < s.terms.length
  displays : Displays allocations (some s.active) r.vtermList memory s.terms

theorem textBackupsEq (bufferFrame mappedTo : UInt32) :
    textBackups bufferFrame mappedTo = List.replicate 24 none ++ some ⟨0xb8000, bufferFrame, mappedTo⟩ :: List.replicate 7 none :=
  rfl

theorem foldSkips {β : Type} (h : β → Option MemoryBackup → β) (skips : ∀ acc, h acc none = acc) (init : β) (n : Nat) :
    (List.replicate n none).foldl h init = init := by
  induction n with
  | zero => rfl
  | succ n ih => rw [List.replicate_succ, List.foldl_cons, skips, ih]

theorem foldTextBackups {β : Type} (h : β → Option MemoryBackup → β) (skips : ∀ acc, h acc none = acc) (init : β)
    (bufferFrame mappedTo : UInt32) :
    (textBackups bufferFrame mappedTo).foldl h init = h init (some ⟨0xb8000, bufferFrame, mappedTo⟩) := by
  rw [textBackupsEq, List.foldl_append, foldSkips h skips, List.foldl_cons, foldSkips h skips]

theorem textKernelLocation (bufferFrame mappedTo : UInt32) :
    (⟨0xb8000, bufferFrame, mappedTo⟩ : MemoryBackup).getKernelLocation = 0xc00b8000 :=
  show (0xb8000 : UInt32) + 0xc0000000 = 0xc00b8000 by decide

theorem textBackupAt {v : VTerm} {bufferFrame mappedTo : UInt32} (backups : v.memoryBackups = textBackups bufferFrame mappedTo) :
    v.getMemoryBackup 0xb8000 = some ⟨0xb8000, bufferFrame, mappedTo⟩ := by
  unfold VTerm.getMemoryBackup
  rw [backups, textBackupsEq]
  rfl

theorem makeInactiveText {v : VTerm} {bufferFrame mappedTo : UInt32} (backups : v.memoryBackups = textBackups bufferFrame mappedTo)
    (memory : Nat → UInt8) : v.makeInactive memory = (v.pointedAt mappedTo, copyPage memory mappedTo 0xc00b8000) := by
  simp only [VTerm.makeInactive, textBackupAt backups, Prod.mk.injEq]
  refine ⟨rfl, ?_⟩
  rw [backups, foldTextBackups _ (fun _ => rfl)]
  show copyPage memory mappedTo (MemoryBackup.getKernelLocation ⟨0xb8000, bufferFrame, mappedTo⟩) = _
  rw [textKernelLocation]

theorem makeActiveText {v : VTerm} {bufferFrame mappedTo : UInt32} (backups : v.memoryBackups = textBackups bufferFrame mappedTo)
    (memory : Nat → UInt8) : v.makeActive memory = (v.pointedAt 0xc00b8000, copyPage memory 0xc00b8000 mappedTo) := by
  simp only [VTerm.makeActive, Prod.mk.injEq]
  refine ⟨rfl, ?_⟩
  rw [backups, foldTextBackups _ (fun _ => rfl)]
  show copyPage memory (MemoryBackup.getKernelLocation ⟨0xb8000, bufferFrame, mappedTo⟩) mappedTo = _
  rw [textKernelLocation]

section
variable {allocations : List (UInt32 × UInt32)}

theorem homesApart (separate : Separate allocations) {shown : Option Nat} {i j : Nat} {p q : UInt32 × UInt32}
    (atI : allocations[i]? = some p) (atJ : allocations[j]? = some q) (other : i ≠ j) :
    Apart (home shown i p.2) (home shown j q.2) := by
  unfold home
  by_cases shownI : shown = some i
  · have notJ : shown ≠ some j := by rw [shownI]; simpa using other
    rw [if_pos shownI, if_neg notJ]
    exact apartSymm (separate.offScreen atJ)
  · by_cases shownJ : shown = some j
    · rw [if_neg shownI, if_pos shownJ]
      exact separate.offScreen atI
    · rw [if_neg shownI, if_neg shownJ]
      exact separate.apart atI atJ other

theorem lookupSet {α : Type} {l : List α} {i j : Nat} {x y : α} (found : l[i]? = some x) :
    (l.set i y)[j]? = if j = i then some y else l[j]? := by
  have inside : i < l.length := (List.getElem?_eq_some_iff.mp found).1
  by_cases same : j = i
  · subst same
    simp [inside]
  · simp [Ne.symm same, same]

theorem displaysSet {shown shown' : Option Nat} {vterms : List VTerm}
    {terms : List (VTerm × (Nat → UInt8))} {memory memory' : Nat → UInt8} {i : Nat} {v v' : VTerm}
    {screen screen' : VTerm × (Nat → UInt8)} {allocation : UInt32 × UInt32}
    (displays : Displays allocations shown vterms memory terms) (atV : vterms[i]? = some v) (atScreen : terms[i]? = some screen)
    (atAllocation : allocations[i]? = some allocation) (hosted : Hosts shown' memory' i v' screen' allocation)
    (stays : ∀ j ≠ i, ∀ page, home shown' j page = home shown j page)
    (frame : ∀ {j q}, allocations[j]? = some q → j ≠ i → ∀ o < 4000,
      memory' ((home shown j q.2).toNat + o) = memory ((home shown j q.2).toNat + o)) :
    Displays allocations shown' (vterms.set i v') memory' (terms.set i screen') := by
  refine ⟨by simp [displays.length], by simp [displays.screens], fun {j w other q} atW atOther atQ => ?_⟩
  rw [lookupSet atV] at atW
  rw [lookupSet atScreen] at atOther
  by_cases same : j = i
  · subst same
    simp only [if_true, Option.some.injEq] at atW atOther
    rw [atAllocation, Option.some.injEq] at atQ
    subst atW atOther atQ
    exact hosted
  · rw [if_neg same] at atW atOther
    obtain ⟨backups, shows⟩ := displays.hosts atW atOther atQ
    refine ⟨backups, ?_⟩
    rw [stays j same]
    exact showsFrame shows (frame atQ same)

theorem homeNone (i : Nat) (page : UInt32) : home none i page = page := rfl

theorem homeShown (i : Nat) (page : UInt32) : home (some i) i page = 0xc00b8000 := if_pos rfl

theorem homeOther {i j : Nat} (other : j ≠ i) (page : UInt32) : home (some i) j page = page :=
  if_neg fun same => other (Option.some.inj same).symm

theorem setLookup {α : Type} {l : List α} {i : Nat} {x : α} (found : l[i]? = some x) : l.set i x = l := by
  apply List.ext_getElem?
  intro j
  rw [lookupSet found]
  split
  · next same => rw [same, found]
  · rfl

section Lookups
variable {shown : Option Nat} {vterms : List VTerm} {memory : Nat → UInt8} {terms : List (VTerm × (Nat → UInt8))}

theorem Displays.hostsAt (displays : Displays allocations shown vterms memory terms) {i : Nat} {v : VTerm}
    (found : vterms[i]? = some v) :
    ∃ screen allocation, terms[i]? = some screen ∧ allocations[i]? = some allocation ∧ Hosts shown memory i v screen allocation := by
  have inside : i < allocations.length := displays.length ▸ (List.getElem?_eq_some_iff.mp found).1
  have insideTerms : i < terms.length := displays.screens ▸ inside
  exact ⟨terms[i], allocations[i], List.getElem?_eq_getElem insideTerms, List.getElem?_eq_getElem inside,
    displays.hosts found (List.getElem?_eq_getElem insideTerms) (List.getElem?_eq_getElem inside)⟩

theorem Displays.termAt (displays : Displays allocations shown vterms memory terms) {i : Nat}
    {screen : VTerm × (Nat → UInt8)} (atScreen : terms[i]? = some screen) :
    ∃ v allocation, vterms[i]? = some v ∧ allocations[i]? = some allocation ∧ Hosts shown memory i v screen allocation := by
  have inside : i < allocations.length := displays.screens ▸ (List.getElem?_eq_some_iff.mp atScreen).1
  have insideTerms : i < vterms.length := displays.length ▸ inside
  exact ⟨vterms[i], allocations[i], List.getElem?_eq_getElem insideTerms, List.getElem?_eq_getElem inside,
    displays.hosts (List.getElem?_eq_getElem insideTerms) atScreen (List.getElem?_eq_getElem inside)⟩

end Lookups

section Steps
variable {vterms : List VTerm} {memory : Nat → UInt8} {terms : List (VTerm × (Nat → UInt8))} {v : VTerm}

theorem parkDisplays (separate : Separate allocations) {act : Nat} (displays : Displays allocations (some act) vterms memory terms)
    (current : vterms[act]? = some v) :
    Displays allocations none (vterms.set act (v.makeInactive memory).1) (v.makeInactive memory).2 terms := by
  obtain ⟨screen, allocation, atScreen, atAllocation, backups, shows⟩ := displays.hostsAt current
  rw [homeShown] at shows
  have ownBackups : v.memoryBackups = textBackups allocation.1 allocation.2 := by rw [shows.pointed]; exact backups
  rw [makeInactiveText ownBackups]
  have parked : Hosts none (copyPage memory allocation.2 0xc00b8000) act (v.pointedAt allocation.2) screen allocation := by
    refine ⟨backups, by rw [shows.pointed]; rfl, shows.atZero, fun o inside => ?_, shows.onScreen⟩
    show copyPage memory allocation.2 0xc00b8000 (allocation.2.toNat + o) = screen.2 o
    rw [copyPageInside _ _ _ (by omega)]
    exact shows.screen o inside
  rw [← setLookup atScreen]
  refine displaysSet displays current atScreen atAllocation parked (fun j other page => by rw [homeNone, homeOther other])
    fun {j q} atQ other => ?_
  rw [homeOther other]
  exact frameApart (copyPageFrame memory allocation.2 0xc00b8000) (Nat.le_refl _) (separate.apart atAllocation atQ (Ne.symm other))

theorem activateDisplays (separate : Separate allocations) {j : Nat} (displays : Displays allocations none vterms memory terms)
    (found : vterms[j]? = some v) :
    Displays allocations (some j) (vterms.set j (v.makeActive memory).1) (v.makeActive memory).2 terms := by
  obtain ⟨screen, allocation, atScreen, atAllocation, backups, shows⟩ := displays.hostsAt found
  rw [homeNone] at shows
  have ownBackups : v.memoryBackups = textBackups allocation.1 allocation.2 := by rw [shows.pointed]; exact backups
  rw [makeActiveText ownBackups]
  have shown : Hosts (some j) (copyPage memory 0xc00b8000 allocation.2) j (v.pointedAt 0xc00b8000) screen allocation := by
    refine ⟨backups, ?_⟩
    rw [homeShown]
    refine ⟨by rw [shows.pointed]; rfl, shows.atZero, fun o inside => ?_, shows.onScreen⟩
    show copyPage memory 0xc00b8000 allocation.2 ((0xc00b8000 : UInt32).toNat + o) = screen.2 o
    rw [copyPageInside _ _ _ (by omega)]
    exact shows.screen o inside
  rw [← setLookup atScreen]
  refine displaysSet displays found atScreen atAllocation shown (fun k other page => by rw [homeNone, homeOther other])
    fun {k q} atQ other => ?_
  rw [homeNone]
  exact frameApart (copyPageFrame memory 0xc00b8000 allocation.2) (Nat.le_refl _) (apartSymm (separate.offScreen atQ))

theorem markDisplays (separate : Separate allocations) {j : Nat} {screen : VTerm × (Nat → UInt8)}
    (displays : Displays allocations (some j) vterms memory terms) (atScreen : terms[j]? = some screen) (value : UInt16) :
    Displays allocations (some j) vterms (writeU16 memory 0xc00b8000 value) (terms.set j (screen.1, writeU16 screen.2 0 value)) := by
  obtain ⟨v, allocation, found, atAllocation, backups, shows⟩ := displays.termAt atScreen
  rw [homeShown] at shows
  have written : view (writeU16 memory 0xc00b8000 value) 0xc00b8000 = writeU16 (view memory 0xc00b8000) 0 value :=
    viewWriteU16 memory 0xc00b8000 value
  have marked : Hosts (some j) (writeU16 memory 0xc00b8000 value) j v (screen.1, writeU16 screen.2 0 value) allocation := by
    refine ⟨backups, ?_⟩
    rw [homeShown]
    refine ⟨shows.pointed, shows.atZero, ?_, shows.onScreen⟩
    rw [written]
    exact agreeWriteU16 shows.screen value
  rw [← setLookup found]
  refine displaysSet displays found atScreen atAllocation marked (fun _ _ _ => rfl) fun {k q} atQ other => ?_
  rw [homeOther other]
  exact frameApart (writeU16Frame memory 0xc00b8000 value) (by decide) (apartSymm (separate.offScreen atQ))

theorem sendDisplays (separate : Separate allocations) {shown : Option Nat} {i : Nat} {screen : VTerm × (Nat → UInt8)}
    (chars : List UInt8) (displays : Displays allocations shown vterms memory terms) (found : vterms[i]? = some v)
    (atScreen : terms[i]? = some screen) :
    Displays allocations shown (vterms.set i (v.sendCharacters memory chars).1) (v.sendCharacters memory chars).2
      (terms.set i (screen.1.sendCharacters screen.2 chars)) := by
  obtain ⟨screen', allocation, atScreen', atAllocation, backups, shows⟩ := displays.hostsAt found
  rw [atScreen, Option.some.injEq] at atScreen'
  subst atScreen'
  obtain ⟨moved, frame, keeps⟩ := sendCharactersRelocatable chars shows
  exact displaysSet displays found atScreen atAllocation ⟨keeps.2.trans backups, moved⟩ (fun _ _ _ => rfl)
    fun atQ other => frameApart frame (by decide) (homesApart separate atAllocation atQ (Ne.symm other))

end Steps

section Refinement
variable {r : VTermRouter} {memory : Nat → UInt8} {s : Screens}

theorem shownDisplays (refines : Refines allocations r memory s) :
    ∃ v, r.vtermList[r.activeVterm]? = some v ∧ Displays allocations (some r.activeVterm) r.vtermList memory s.terms := by
  obtain ⟨v, -, current, -, -⟩ := refines.displays.termAt (List.getElem?_eq_getElem refines.named)
  rw [← refines.active] at current
  exact ⟨v, current, refines.active ▸ refines.displays⟩

theorem sendRefines (separate : Separate allocations) (refines : Refines allocations r memory s) (index : Nat)
    (chars : List UInt8) :
    Refines allocations (r.sendCharacters memory index chars).1 (r.sendCharacters memory index chars).2
      (s.step (.sendCharacters index chars)) := by
  cases found : r.vtermList[index]? with
  | none =>
    have missing : s.terms[index]? = none := by
      rw [List.getElem?_eq_none_iff] at found ⊢
      rw [refines.displays.screens, ← refines.displays.length]
      exact found
    simp only [VTermRouter.sendCharacters, found, Screens.step, missing]
    exact refines
  | some v =>
    obtain ⟨⟨term, page⟩, allocation, atScreen, -, -⟩ := refines.displays.hostsAt found
    rw [VTermRouter.sendCharactersSends found]
    simp only [Screens.step, atScreen]
    exact ⟨refines.active, by simpa using refines.named, sendDisplays separate chars refines.displays found atScreen⟩

theorem switchRefines (separate : Separate allocations) (refines : Refines allocations r memory s) {active : Nat}
    {currentMode : UInt8} (valid : s.Valid (.setActiveVterm active currentMode)) :
    Refines allocations (r.setActiveVterm memory active currentMode).1 (r.setActiveVterm memory active currentMode).2
      (s.step (.setActiveVterm active currentMode)) := by
  obtain ⟨⟨term, page⟩, atScreen, reported⟩ := valid
  obtain ⟨v, current, displays⟩ := shownDisplays refines
  have parked := parkDisplays separate displays current
  obtain ⟨next, allocation, found, -, -, shows⟩ := parked.termAt atScreen
  have nextMode : next.videoMode = currentMode := by rw [shows.pointed]; exact reported
  rw [VTermRouter.setActiveVtermSwitches current rfl found nextMode rfl]
  have activated := activateDisplays separate parked found
  have inside : active < s.terms.length := (List.getElem?_eq_some_iff.mp atScreen).1
  have termMode : term.videoMode = currentMode := reported
  simp only [Screens.step, atScreen, termMode]
  by_cases text : currentMode = 0x03
  · rw [if_pos text, if_pos text]
    exact ⟨rfl, by simpa using inside, markDisplays separate activated atScreen (firstCell active)⟩
  · rw [if_neg text, if_neg text, setLookup atScreen]
    exact ⟨rfl, inside, activated⟩

theorem refinesStep (separate : Separate allocations) (refines : Refines allocations r memory s) {call : Call}
    (valid : s.Valid call) : Refines allocations (r.step memory call).1 (r.step memory call).2 (s.step call) := by
  cases call with
  | setActiveVterm active currentMode => exact switchRefines separate refines valid
  | sendCharacters index chars => exact sendRefines separate refines index chars

theorem refinesRun (separate : Separate allocations) (calls : List Call) (refines : Refines allocations r memory s)
    (valid : s.ValidRun calls) : Refines allocations (r.run memory calls).1 (r.run memory calls).2 (s.run calls) := by
  induction calls generalizing r memory s with
  | nil => exact refines
  | cons call rest ih => exact ih (refinesStep separate refines valid.1) valid.2

theorem failedSwitchParks (separate : Separate allocations) (refines : Refines allocations r memory s) {active : Nat}
    {currentMode : UInt8} (invalid : ¬ s.Valid (.setActiveVterm active currentMode)) :
    Displays allocations none (r.setActiveVterm memory active currentMode).1.vtermList
      (r.setActiveVterm memory active currentMode).2 s.terms := by
  obtain ⟨v, current, displays⟩ := shownDisplays refines
  have parked := parkDisplays separate displays current
  cases found : (r.vtermList.set r.activeVterm (v.makeInactive memory).1)[active]? with
  | none =>
    rw [VTermRouter.setActiveVtermMissing current rfl found]
    exact parked
  | some next =>
    have refused : next.videoMode ≠ currentMode := by
      intro same
      obtain ⟨screen, allocation, atScreen, -, -, shows⟩ := parked.hostsAt found
      exact invalid ⟨screen, atScreen, by rw [← same, shows.pointed]; rfl⟩
    rw [VTermRouter.setActiveVtermRefused current rfl found refused]
    exact parked

theorem terminalHosts (mode : UInt8) (allocation : UInt32 × UInt32) (memory : Nat → UInt8) :
    let v := VTerm.withVideoMode mode allocation.1 allocation.2
    (v.pointedAt 0).memoryBackups = textBackups allocation.1 allocation.2 ∧
      Shows allocation.2 v memory (v.pointedAt 0) (view memory allocation.2) :=
  ⟨rfl, rfl, rfl, fun _ _ => rfl, onScreenNew 0⟩

theorem terminalOf {i : Nat} {v : VTerm} (found : (VTermRouter.terminals allocations)[i]? = some v) :
    ∃ allocation, allocations[i]? = some allocation ∧
      v = VTerm.withVideoMode (if i = allocations.length - 1 then 0x13 else 0x03) allocation.1 allocation.2 := by
  simp only [VTermRouter.terminals, List.getElem?_mapIdx, Option.map_eq_some_iff] at found
  obtain ⟨allocation, atAllocation, rfl⟩ := found
  exact ⟨allocation, atAllocation, rfl⟩

theorem newRefines (separate : Separate allocations) (nonempty : allocations ≠ []) (memory : Nat → UInt8) :
    Refines allocations (VTermRouter.new allocations memory).1 (VTermRouter.new allocations memory).2
      (Screens.new allocations memory) := by
  have counted : (VTermRouter.terminals allocations).length = allocations.length := List.length_mapIdx
  obtain ⟨first, rest, split⟩ := List.exists_cons_of_ne_nil fun empty => nonempty (List.eq_nil_of_length_eq_zero
    (counted ▸ congrArg List.length empty))
  rw [VTermRouter.newOfTerminals split]
  obtain ⟨firstAllocation, atFirst, rfl⟩ := terminalOf (by rw [split]; rfl : (VTermRouter.terminals allocations)[0]? = _)
  have initial : Shows 0xc00b8000 (VTerm.withVideoMode (if 0 = allocations.length - 1 then 0x13 else 0x03) firstAllocation.1 firstAllocation.2).makeInitial memory
      ((VTerm.withVideoMode (if 0 = allocations.length - 1 then 0x13 else 0x03) firstAllocation.1 firstAllocation.2).pointedAt 0) (view memory 0xc00b8000) :=
    ⟨rfl, rfl, fun _ _ => rfl, onScreenNew 0⟩
  obtain ⟨scrolled, frame, keeps⟩ := textOpRelocatable (.scroll (2 : UInt32).toUInt8) initial
  dsimp only at scrolled frame keeps
  unfold Screens.new VTerm.scroll
  have screens : ((VTermRouter.terminals allocations).mapIdx fun i v => if i = 0 then (v.pointedAt 0).textOp
      (view memory 0xc00b8000) (.scroll (2 : UInt32).toUInt8) else (v.pointedAt 0, view memory v.textModeState.basePointer)).length = allocations.length := by
    rw [List.length_mapIdx, counted]
  refine ⟨rfl, by rw [screens, ← counted, split]; simp, ⟨by rw [← counted, split]; rfl, screens,
    fun {i v screen allocation} atV atScreen atAllocation => ?_⟩⟩
  simp only [List.getElem?_mapIdx, split, Option.map_eq_some_iff] at atScreen
  obtain ⟨w, atW, rfl⟩ := atScreen
  cases i with
  | zero =>
    simp only [List.getElem?_cons_zero, Option.some.injEq] at atV atW
    rw [atFirst, Option.some.injEq] at atAllocation
    subst atV atW atAllocation
    rw [if_pos rfl]
    refine ⟨keeps.2, ?_⟩
    rw [homeShown]
    dsimp only
    exact scrolled
  | succ k =>
    simp only [List.getElem?_cons_succ] at atV atW
    rw [atV, Option.some.injEq] at atW
    subst atW
    obtain ⟨allocation', atAllocation', rfl⟩ := terminalOf (by rw [split]; exact atV : (VTermRouter.terminals allocations)[k + 1]? = _)
    rw [atAllocation, Option.some.injEq] at atAllocation'
    subst atAllocation'
    rw [if_neg (Nat.succ_ne_zero k)]
    obtain ⟨backups, shows⟩ := terminalHosts (if k + 1 = allocations.length - 1 then 0x13 else 0x03) allocation memory
    refine ⟨backups, ?_⟩
    rw [homeOther (Nat.succ_ne_zero k)]
    dsimp only
    exact showsFrame shows (frameApart frame (by decide) (apartSymm (separate.offScreen atAllocation)))

end Refinement

end

def kernelAllocations : List (UInt32 × UInt32) :=
  [(0x200000, 0xd0000000), (0x201000, 0xd0001000), (0x202000, 0xd0002000), (0x203000, 0xd0003000),
    (0x204000, 0xd0004000)]

theorem setActiveVtermParksShownTerminal :
    (∀ (allocations : List (UInt32 × UInt32)) (memory : Nat → UInt8) (calls : List Call), Separate allocations →
      allocations ≠ [] → (Screens.new allocations memory).ValidRun calls →
      Refines allocations ((VTermRouter.new allocations memory).1.run (VTermRouter.new allocations memory).2 calls).1
        ((VTermRouter.new allocations memory).1.run (VTermRouter.new allocations memory).2 calls).2
        ((Screens.new allocations memory).run calls)) ∧
    (∀ (allocations : List (UInt32 × UInt32)) (r : VTermRouter) (memory : Nat → UInt8) (s : Screens) (active : Nat)
      (currentMode : UInt8), Separate allocations → Refines allocations r memory s →
      ¬ s.Valid (.setActiveVterm active currentMode) →
      Displays allocations none (r.setActiveVterm memory active currentMode).1.vtermList
        (r.setActiveVterm memory active currentMode).2 s.terms) ∧
    ((VTermRouter.new kernelAllocations fun _ => 0).1.setActiveVterm (VTermRouter.new kernelAllocations fun _ => 0).2 5
      0x03).1.activeVterm = 0 ∧
    (((VTermRouter.new kernelAllocations fun _ => 0).1.setActiveVterm (VTermRouter.new kernelAllocations fun _ => 0).2 5
      0x03).1.vtermList[0]?.map fun v => v.textModeState.basePointer) = some 0xd0000000 ∧
    ((VTermRouter.new kernelAllocations fun _ => 0).1.setActiveVterm (VTermRouter.new kernelAllocations fun _ => 0).2 1
      0x03).2 0xc00b8001 = 0x0f ∧
    ((Screens.new kernelAllocations fun _ => 0).terms[1]?.map fun screen => screen.2 1) = some 0 :=
  ⟨fun allocations memory calls separate nonempty valid =>
    refinesRun separate calls (newRefines separate nonempty memory) valid,
    fun _ _ _ _ _ _ separate refines invalid => failedSwitchParks separate refines invalid,
    by decide, by decide, by decide, by decide⟩

theorem separateKernelAllocations : Separate kernelAllocations where
  apart {i j p q} atI atJ differ := by
    rcases i with _ | _ | _ | _ | _ | i <;> rcases j with _ | _ | _ | _ | _ | j <;>
      simp [kernelAllocations] at atI atJ differ <;> subst atI atJ <;> simp [Apart]
  offScreen {i p} atI := by
    rcases i with _ | _ | _ | _ | _ | i <;> simp [kernelAllocations] at atI <;> subst atI <;> simp [Apart]

theorem kernelRouterRefinesScreens :
    Separate kernelAllocations ∧ kernelAllocations ≠ [] ∧
      (Screens.new kernelAllocations fun _ => 0).ValidRun [.sendCharacters 0 [0x41]] ∧
      Refines kernelAllocations
        ((VTermRouter.new kernelAllocations fun _ => 0).1.run (VTermRouter.new kernelAllocations fun _ => 0).2
          [.sendCharacters 0 [0x41]]).1
        ((VTermRouter.new kernelAllocations fun _ => 0).1.run (VTermRouter.new kernelAllocations fun _ => 0).2
          [.sendCharacters 0 [0x41]]).2
        ((Screens.new kernelAllocations fun _ => 0).run [.sendCharacters 0 [0x41]]) := by
  have nonempty : kernelAllocations ≠ [] := by decide
  have valid : (Screens.new kernelAllocations fun _ => 0).ValidRun [.sendCharacters 0 [0x41]] := ⟨trivial, trivial⟩
  exact ⟨separateKernelAllocations, nonempty, valid,
    setActiveVtermParksShownTerminal.1 _ _ _ separateKernelAllocations nonempty valid⟩

end ImmDosNx.Vterm
