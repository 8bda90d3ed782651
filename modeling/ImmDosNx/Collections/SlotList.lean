import ImmDosNx.Lib.FiniteMap
import ImmDosNx.Lib.Run

/-! `SlotList` (`collections/slotlist.rs`): a growing vector of optional items
whose indexes stay stable. Every file system keeps its open handles in one. Seen
through `get` it is a finite map from indexes to items: each operation acts on
that map as an update of one index, and `insert` files its item under the least
index that holds nothing. -/
namespace ImmDosNx

structure SlotList (α : Type) where
  slots : List (Option α)
  deriving DecidableEq, Repr

namespace SlotList

variable {α β : Type}

def new : SlotList α := ⟨[]⟩

/-- The search loop stops at the first empty slot; when there is none, an empty slot is pushed at the end. -/
def findEmptySlot (l : SlotList α) : SlotList α × Nat :=
  match l.slots.findIdx? Option.isNone with
  | some index => (l, index)
  | none => (⟨l.slots ++ [none]⟩, l.slots.length)

def insert (l : SlotList α) (item : α) : SlotList α × Nat :=
  let (l, index) := l.findEmptySlot
  (⟨l.slots.set index (some item)⟩, index)

def get (l : SlotList α) (index : Nat) : Option α := do
  let slot ← l.slots[index]?
  slot

/-- Here `get_mut` together with the caller's code on the item it lends: `visit` gives back the item to keep in
the slot and the caller's own result. -/
def getMut (l : SlotList α) (index : Nat) (visit : α → α × β) : SlotList α × Option β :=
  match l.get index with
  | some item => (⟨l.slots.set index (some (visit item).1)⟩, some (visit item).2)
  | none => (l, none)

def remove (l : SlotList α) (index : Nat) : SlotList α × Option α :=
  match l.slots[index]? with
  | some entry => (⟨l.slots.set index none⟩, entry)
  | none => (l, none)

def replace (l : SlotList α) (index : Nat) (item : α) : SlotList α × Option α :=
  let slots := l.slots ++ List.replicate (index + 1 - l.slots.length) none
  (⟨slots.set index (some item)⟩, slots[index]?.join)

def mapInPlace (l : SlotList α) (f : α → Option α) : SlotList α :=
  ⟨l.slots.map fun entry => entry.bind f⟩

def iter (l : SlotList α) : List α := l.slots.filterMap id

def len (l : SlotList α) : Nat := l.slots.length

example : ((new.insert 20).1.insert 30).2 = 1 ∧ ((new.insert 20).1.insert 30).1.get 0 = some 20 := by
  decide

theorem getEq (l : SlotList α) (index : Nat) : l.get index = l.slots[index]?.join := by
  simp only [get]
  cases l.slots[index]? <;> rfl

@[simp] theorem getNew (index : Nat) : (new : SlotList α).get index = none := rfl

theorem getSet (l : SlotList α) {index j : Nat} (inside : index < l.slots.length) (slot : Option α) :
    (⟨l.slots.set index slot⟩ : SlotList α).get j = if j = index then slot else l.get j := by
  simp only [getEq, List.getElem?_set, inside, if_true]
  by_cases same : j = index
  · subst same; simp
  · simp [same, Ne.symm same]

theorem getPushNone (l : SlotList α) (j : Nat) : (⟨l.slots ++ [none]⟩ : SlotList α).get j = l.get j := by
  simp only [getEq, List.getElem?_append]
  split
  · rfl
  · rename_i outside
    have beyond : l.slots[j]? = none := List.getElem?_eq_none (by omega)
    rw [beyond]
    cases j - l.slots.length <;> simp

structure EmptySlot (l : SlotList α) (found : SlotList α × Nat) : Prop where
  sameMap : ∀ j, found.1.get j = l.get j
  inside : found.2 < found.1.slots.length
  empty : l.get found.2 = none
  least : ∀ j < found.2, (l.get j).isSome

theorem findEmptySlotSpec (l : SlotList α) : EmptySlot l l.findEmptySlot := by
  unfold findEmptySlot
  split
  · next index found =>
    obtain ⟨inside, empty, before⟩ := List.findIdx?_eq_some_iff_getElem.mp found
    refine ⟨fun _ => rfl, inside, ?_, fun j lt => ?_⟩
    · simp only [getEq, List.getElem?_eq_getElem inside, Option.join_some]
      simpa using empty
    · have full := before j lt
      simp only [getEq, List.getElem?_eq_getElem (Nat.lt_trans lt inside), Option.join_some]
      simpa [Option.isSome_iff_ne_none] using full
  · next noneFound =>
    have full := List.findIdx?_eq_none_iff.mp noneFound
    refine ⟨getPushNone l, by simp, ?_, fun j lt => ?_⟩
    · simp [getEq]
    · have present := full _ (List.getElem_mem lt)
      simp only [getEq, List.getElem?_eq_getElem lt, Option.join_some]
      simpa using present

theorem getInsert (l : SlotList α) (item : α) (j : Nat) :
    (l.insert item).1.get j = if j = (l.insert item).2 then some item else l.get j := by
  have found := findEmptySlotSpec l
  simp only [insert]
  rw [getSet _ found.inside, found.sameMap]
  rfl

theorem insertFresh (l : SlotList α) (item : α) : l.get (l.insert item).2 = none :=
  (findEmptySlotSpec l).empty

theorem insertLeast (l : SlotList α) (item : α) : ∀ j < (l.insert item).2, (l.get j).isSome :=
  (findEmptySlotSpec l).least

theorem insertGrows (l : SlotList α) (item : α) :
    (l.insert item).2 ≤ l.slots.length ∧ (l.insert item).1.slots.length ≤ l.slots.length + 1 := by
  simp only [insert, findEmptySlot]
  split
  · next index found =>
    have inside := (List.findIdx?_eq_some_iff_getElem.mp found).1
    simp only [List.length_set]
    omega
  · simp

theorem insertFull (l : SlotList α) (item : α) (full : ∀ j < l.slots.length, (l.get j).isSome) :
    (l.insert item).2 = l.slots.length := by
  have atMost := (l.insertGrows item).1
  have notBefore : ¬ (l.insert item).2 < l.slots.length := fun inside => by
    have present := full _ inside
    rw [insertFresh] at present
    exact Bool.false_ne_true present
  omega

theorem getMutFst (l : SlotList α) (index : Nat) (visit : α → α × β) (j : Nat) :
    (l.getMut index visit).1.get j = if j = index then (l.get index).map (fun item => (visit item).1)
      else l.get j := by
  unfold getMut
  split
  · next item present =>
    have inside : index < l.slots.length := by
      by_contra outside
      simp [getEq, List.getElem?_eq_none (Nat.le_of_not_lt outside)] at present
    rw [getSet _ inside, present]
    rfl
  · next absent =>
    by_cases same : j = index
    · subst same; simp [absent]
    · simp [same]

theorem getMutSnd (l : SlotList α) (index : Nat) (visit : α → α × β) :
    (l.getMut index visit).2 = (l.get index).map (fun item => (visit item).2) := by
  unfold getMut
  split <;> simp_all

theorem getMutPreserves {γ : Type} (l : SlotList α) (index : Nat) (visit : α → α × β) (f : α → γ)
    (keeps : ∀ item, f (visit item).1 = f item) (j : Nat) :
    ((l.getMut index visit).1.get j).map f = (l.get j).map f := by
  rw [getMutFst]
  split
  · next same => subst same; cases l.get j <;> simp [keeps]
  · rfl

theorem getMutAbsent (l : SlotList α) {index : Nat} (visit : α → α × β) (absent : l.get index = none) :
    l.getMut index visit = (l, none) := by
  simp [getMut, absent]

theorem removeAbsent (l : SlotList α) {index : Nat} (absent : l.get index = none) : l.remove index = (l, none) := by
  unfold remove
  split
  · next entry present =>
    have empty : entry = none := by simpa [getEq, present] using absent
    subst empty
    have inside : index < l.slots.length := by
      by_contra outside
      simp [List.getElem?_eq_none (Nat.le_of_not_lt outside)] at present
    have same : l.slots[index] = none := by simpa [List.getElem?_eq_getElem inside] using present
    have kept : l.slots.set index none = l.slots := by simpa [same] using List.set_getElem_self inside
    simp [kept]
  · rfl

theorem getRemove (l : SlotList α) (index j : Nat) :
    (l.remove index).1.get j = if j = index then none else l.get j := by
  unfold remove
  split
  · next entry present =>
    have inside : index < l.slots.length := by
      by_contra outside
      simp [List.getElem?_eq_none (Nat.le_of_not_lt outside)] at present
    exact getSet _ inside none
  · next absent =>
    by_cases same : j = index
    · subst same; simp [getEq, absent]
    · simp [same]

theorem removeSnd (l : SlotList α) (index : Nat) : (l.remove index).2 = l.get index := by
  unfold remove
  split <;> simp_all [getEq]

theorem getReplace (l : SlotList α) (index item j) :
    (l.replace index item).1.get j = if j = index then some item else l.get j := by
  simp only [replace, getEq, List.getElem?_set, List.length_append, List.length_replicate]
  by_cases same : j = index
  · subst same
    rw [if_pos rfl, if_pos (by omega)]
    simp
  · simp only [Ne.symm same, if_false, same, List.getElem?_append]
    split
    · rfl
    · rename_i outside
      have beyond : l.slots[j]? = none := List.getElem?_eq_none (by omega)
      simp only [beyond, List.getElem?_replicate]
      split <;> rfl

theorem replaceSnd (l : SlotList α) (index : Nat) (item : α) : (l.replace index item).2 = l.get index := by
  simp only [replace, getEq, List.getElem?_append]
  split
  · rfl
  · rename_i outside
    have beyond : l.slots[index]? = none := List.getElem?_eq_none (by omega)
    simp only [beyond, List.getElem?_replicate]
    split <;> rfl

theorem getMapInPlace (l : SlotList α) (f : α → Option α) (j : Nat) :
    (l.mapInPlace f).get j = (l.get j).bind f := by
  simp only [mapInPlace, getEq, List.getElem?_map]
  cases l.slots[j]? with
  | none => rfl
  | some entry => cases entry <;> rfl

theorem iterEq : ∀ slots : List (Option α),
    (⟨slots⟩ : SlotList α).iter = (List.range slots.length).filterMap (⟨slots⟩ : SlotList α).get
  | [] => rfl
  | slot :: rest => by
    have tail : (⟨slot :: rest⟩ : SlotList α).get ∘ Nat.succ = (⟨rest⟩ : SlotList α).get := by
      funext j
      simp [getEq]
    have head : (⟨slot :: rest⟩ : SlotList α).get 0 = slot := by simp [getEq]
    rw [List.length_cons, List.range_succ_eq_map, List.filterMap_cons, List.filterMap_map, tail, ← iterEq rest, head]
    cases slot <;> rfl

/-! ### The finite map a slot list stands for -/

def toMap (l : SlotList α) : FiniteMap α where
  lookup := l.get
  finite := ⟨l.slots.length, fun j far => by simp [getEq, List.getElem?_eq_none far]⟩

inductive Op (α β : Type)
  | insert (item : α)
  | get (index : Nat)
  | getMut (index : Nat) (visit : α → α × β)
  | remove (index : Nat)
  | replace (index : Nat) (item : α)
  | mapInPlace (f : α → Option α)
  | iter

inductive Answer (α β : Type)
  | index (index : Nat)
  | item (item : Option α)
  | lent (result : Option β)
  | items (items : List α)
  | done

def perform (l : SlotList α) : Op α β → SlotList α × Answer α β
  | .insert item => ((l.insert item).1, .index (l.insert item).2)
  | .get index => (l, .item (l.get index))
  | .getMut index visit => ((l.getMut index visit).1, .lent (l.getMut index visit).2)
  | .remove index => ((l.remove index).1, .item (l.remove index).2)
  | .replace index item => ((l.replace index item).1, .item (l.replace index item).2)
  | .mapInPlace f => (l.mapInPlace f, .done)
  | .iter => (l, .items l.iter)

noncomputable def specPerform (m : FiniteMap α) : Op α β → FiniteMap α × Answer α β
  | .insert item => (m.update m.leastFree (some item), .index m.leastFree)
  | .get index => (m, .item (m.lookup index))
  | .getMut index visit =>
    (m.update index ((m.lookup index).map fun item => (visit item).1), .lent ((m.lookup index).map fun item => (visit item).2))
  | .remove index => (m.update index none, .item (m.lookup index))
  | .replace index item => (m.update index (some item), .item (m.lookup index))
  | .mapInPlace f => (m.bindValues f, .done)
  | .iter => (m, .items m.values)

theorem iterValues (l : SlotList α) : l.iter = l.toMap.values := by
  rw [l.toMap.valuesEq fun j (far : l.slots.length ≤ j) => show l.get j = none by
    simp [getEq, List.getElem?_eq_none far]]
  exact iterEq l.slots

theorem insertLeastFree (l : SlotList α) (item : α) : l.toMap.leastFree = (l.insert item).2 :=
  FiniteMap.leastFreeEq (insertFresh l item) (insertLeast l item)

theorem performRefines (l : SlotList α) (op : Op α β) :
    (l.perform op).1.toMap = (specPerform l.toMap op).1 ∧ (l.perform op).2 = (specPerform l.toMap op).2 := by
  cases op with
  | insert item =>
    rw [perform, specPerform, insertLeastFree]
    exact ⟨FiniteMap.ext (funext (getInsert l item)), rfl⟩
  | get index => exact ⟨rfl, rfl⟩
  | getMut index visit =>
    refine ⟨FiniteMap.ext (funext fun j => ?_), congrArg Answer.lent (getMutSnd l index visit)⟩
    exact getMutFst l index visit j
  | remove index => exact ⟨FiniteMap.ext (funext (getRemove l index)), congrArg Answer.item (removeSnd l index)⟩
  | replace index item =>
    exact ⟨FiniteMap.ext (funext (getReplace l index item)), congrArg Answer.item (replaceSnd l index item)⟩
  | mapInPlace f => exact ⟨FiniteMap.ext (funext (getMapInPlace l f)), rfl⟩
  | iter => exact ⟨rfl, congrArg Answer.items (iterValues l)⟩

end SlotList

theorem slotListRefinesFiniteMap {α β : Type} :
    (∀ (l : SlotList α) (ops : List (SlotList.Op α β)), ∃ l' m' answers,
      Machine.runWith (fun l op => some (l.perform op)) l ops = some (l', answers) ∧
      Machine.runWith (fun m op => some (SlotList.specPerform m op)) l.toMap ops = some (m', answers) ∧
      l'.toMap = m') ∧
    (∀ m : FiniteMap α, m.lookup m.leastFree = none ∧ ∀ j < m.leastFree, (m.lookup j).isSome) ∧
    (∀ (m : FiniteMap α) n, (∀ j, n ≤ j → m.lookup j = none) → m.values = (List.range n).filterMap m.lookup) := by
  refine ⟨fun l ops => ?_, FiniteMap.leastFreeSpec, fun m _ beyond => m.valuesEq beyond⟩
  refine Machine.runWithSimulation (fun (l : SlotList α) m => l.toMap = m) (fun l m op same => ?_) rfl ops
  subst same
  exact l.performRefines op

end ImmDosNx
