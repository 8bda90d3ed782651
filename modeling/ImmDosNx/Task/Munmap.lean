import ImmDosNx.Task.MemoryRegions

/-! `munmap` (`task/memory.rs`) over a map whose regions are in key order, keyed by
their address and disjoint. It cuts exactly `addr..addr + length` out of the
addresses that `get_mapping_containing_address` finds, every other address keeps
the backing it had, and the map stays keyed and disjoint. An address belongs to a
region as `contains_address` says, so a region whose end wraps past 2^32 holds no
address. The proof follows the scan region by region: each modification cuts one
region, whose pieces stay where the region was. -/
namespace ImmDosNx.Regions

def MMapRegion.containsAddress (r : MMapRegion) (addr : UInt32) : Bool := r.range.1 ≤ addr && addr < r.range.2

/-- The loop of `get_mapping_containing_address` over the regions in key order. -/
def mappingContaining (regions : List (UInt32 × MMapRegion)) (addr : UInt32) : Option MMapRegion :=
  (regions.find? fun entry => entry.2.containsAddress addr).map (·.2)

def MemoryRegions.getMappingContainingAddress (m : MemoryRegions) (addr : UInt32) : Option MMapRegion :=
  mappingContaining m.mmapRegions addr

/-! ### Well-formed maps and the addresses they hold -/

def Apart (a b : UInt32 × MMapRegion) : Prop := ∀ x, a.2.containsAddress x = true → b.2.containsAddress x = false

structure WellFormed (regions : List (UInt32 × MMapRegion)) : Prop where
  sorted : regions.Pairwise fun a b => a.1 < b.1
  keyed : ∀ entry ∈ regions, entry.1 = entry.2.address
  disjoint : regions.Pairwise Apart

def Covering (regions : List (UInt32 × MMapRegion)) (x : UInt32) (backing : MMapBacking) : Prop :=
  ∃ entry ∈ regions, entry.2.containsAddress x = true ∧ entry.2.backedBy = backing

theorem apartSymm {a b : UInt32 × MMapRegion} (apart : Apart a b) : Apart b a := by
  intro x inB
  cases inA : a.2.containsAddress x
  · rfl
  · simp [apart x inA] at inB

theorem containsAddressIff (r : MMapRegion) (x : UInt32) :
    r.containsAddress x = true ↔
      r.address.toNat ≤ x.toNat ∧ x.toNat < r.address.toNat + r.size.toNat ∧ r.address.toNat + r.size.toNat < 2 ^ 32 := by
  have bounds := r.size.toNat_lt
  simp only [MMapRegion.containsAddress, MMapRegion.range, Bool.and_eq_true, decide_eq_true_eq, UInt32.le_iff_toNat_le,
    UInt32.lt_iff_toNat_lt, UInt32.toNat_add]
  constructor
  · rintro ⟨low, high⟩
    by_cases wraps : r.address.toNat + r.size.toNat < 2 ^ 32
    · rw [Nat.mod_eq_of_lt wraps] at high
      exact ⟨low, high, wraps⟩
    · omega
  · rintro ⟨low, high, fits⟩
    rw [Nat.mod_eq_of_lt fits]
    exact ⟨low, high⟩

theorem containsStart {r : MMapRegion} {x : UInt32} (holds : r.containsAddress x = true) :
    r.containsAddress r.address = true := by
  rw [containsAddressIff] at holds ⊢
  omega

/-! ### `insertKey` and `removeKey` on a sorted map -/

theorem memInsertKey {l : List (UInt32 × MMapRegion)} {k : UInt32} {v : MMapRegion} {e : UInt32 × MMapRegion}
    (mem : e ∈ insertKey l k v) : e = (k, v) ∨ e ∈ l := by
  induction l with
  | nil => simpa [insertKey] using mem
  | cons head rest ih =>
    simp only [insertKey] at mem
    split_ifs at mem
    · simpa using mem
    · simp only [List.mem_cons] at mem
      rcases mem with same | inRest
      · exact Or.inl same
      · exact Or.inr (List.mem_cons_of_mem _ inRest)
    · simp only [List.mem_cons] at mem
      rcases mem with first | later
      · exact Or.inr (first ▸ List.mem_cons_self)
      · rcases ih later with new | inRest
        · exact Or.inl new
        · exact Or.inr (List.mem_cons_of_mem _ inRest)

theorem memInsertKeySelf (l : List (UInt32 × MMapRegion)) (k : UInt32) (v : MMapRegion) : (k, v) ∈ insertKey l k v := by
  induction l with
  | nil => simp [insertKey]
  | cons head rest ih =>
    simp only [insertKey]
    split_ifs <;> simp [ih]

theorem memInsertKeyOther {l : List (UInt32 × MMapRegion)} {k : UInt32} {v : MMapRegion} {e : UInt32 × MMapRegion}
    (mem : e ∈ l) (other : e.1 ≠ k) : e ∈ insertKey l k v := by
  induction l with
  | nil => simp at mem
  | cons head rest ih =>
    simp only [insertKey]
    rcases List.mem_cons.mp mem with first | later
    · subst first
      split_ifs with below same
      · simp
      · exact absurd same.symm other
      · simp
    · split_ifs
      · simp [later]
      · simp [later]
      · exact List.mem_cons_of_mem _ (ih later)

theorem insertKeySorted {l : List (UInt32 × MMapRegion)} (sorted : l.Pairwise fun a b => a.1 < b.1)
    (k : UInt32) (v : MMapRegion) : (insertKey l k v).Pairwise fun a b => a.1 < b.1 := by
  induction l with
  | nil => simp [insertKey]
  | cons head rest ih =>
    rw [List.pairwise_cons] at sorted
    simp only [insertKey]
    split_ifs with below same
    · refine List.Pairwise.cons (fun e mem => ?_) (List.Pairwise.cons sorted.1 sorted.2)
      rcases List.mem_cons.mp mem with first | later
      · exact first ▸ below
      · exact UInt32.lt_trans below (sorted.1 e later)
    · refine List.Pairwise.cons (fun e mem => same ▸ sorted.1 e mem) sorted.2
    · refine List.Pairwise.cons (fun e mem => ?_) (ih sorted.2)
      rcases memInsertKey mem with new | inRest
      · subst new
        dsimp only at below same ⊢
        rw [UInt32.lt_iff_toNat_lt] at below ⊢
        rw [← UInt32.toNat_inj] at same
        omega
      · exact sorted.1 e inRest

theorem insertKeyDisjoint {l : List (UInt32 × MMapRegion)} (disjoint : l.Pairwise Apart) {k : UInt32} {v : MMapRegion}
    (apart : ∀ e ∈ l, Apart (k, v) e) : (insertKey l k v).Pairwise Apart := by
  induction l with
  | nil => simp [insertKey]
  | cons head rest ih =>
    rw [List.pairwise_cons] at disjoint
    simp only [insertKey]
    split_ifs
    · exact List.Pairwise.cons apart (List.Pairwise.cons disjoint.1 disjoint.2)
    · exact List.Pairwise.cons (fun e mem => apart e (List.mem_cons_of_mem _ mem)) disjoint.2
    · refine List.Pairwise.cons (fun e mem => ?_) (ih disjoint.2 fun e mem => apart e (List.mem_cons_of_mem _ mem))
      rcases memInsertKey mem with new | inRest
      · exact new ▸ apartSymm (apart head List.mem_cons_self)
      · exact disjoint.1 e inRest

theorem insertKeyAppend (pre l : List (UInt32 × MMapRegion)) {k : UInt32} (v : MMapRegion)
    (below : ∀ e ∈ pre, e.1 < k) : insertKey (pre ++ l) k v = pre ++ insertKey l k v := by
  induction pre with
  | nil => rfl
  | cons head rest ih =>
    have headBelow := below head List.mem_cons_self
    have notBelow : ¬ k < head.1 := fun lt => absurd (UInt32.lt_trans lt headBelow) (UInt32.lt_irrefl _)
    have notSame : k ≠ head.1 := fun same => absurd (same ▸ headBelow) (UInt32.lt_irrefl _)
    simp only [List.cons_append, insertKey, if_neg notBelow, if_neg notSame,
      ih fun e mem => below e (List.mem_cons_of_mem _ mem)]

theorem insertKeyBelow (l : List (UInt32 × MMapRegion)) {k : UInt32} (v : MMapRegion) (below : ∀ e ∈ l, k < e.1) :
    insertKey l k v = (k, v) :: l := by
  cases l with
  | nil => rfl
  | cons head rest => simp [insertKey, below head List.mem_cons_self]

theorem removeKeyAt (pre rest : List (UInt32 × MMapRegion)) (k : UInt32) (r : MMapRegion)
    (others : ∀ e ∈ pre ++ rest, e.1 ≠ k) : removeKey (pre ++ (k, r) :: rest) k = (some r, pre ++ rest) := by
  have preNone : pre.find? (·.1 == k) = none := List.find?_eq_none.mpr fun e mem => by
    simpa using others e (List.mem_append_left _ mem)
  have preKept : pre.filter (·.1 != k) = pre := List.filter_eq_self.mpr fun e mem => by
    simpa using others e (List.mem_append_left _ mem)
  have restKept : rest.filter (·.1 != k) = rest := List.filter_eq_self.mpr fun e mem => by
    simpa using others e (List.mem_append_right _ mem)
  simp [removeKey, List.find?_append, preNone, List.filter_append, preKept, restKept]

theorem coveringAppend (l₁ l₂ : List (UInt32 × MMapRegion)) (x : UInt32) (b : MMapBacking) :
    Covering (l₁ ++ l₂) x b ↔ Covering l₁ x b ∨ Covering l₂ x b := by
  simp only [Covering, List.mem_append, or_and_right, exists_or]

theorem coveringCons (e : UInt32 × MMapRegion) (l : List (UInt32 × MMapRegion)) (x : UInt32) (b : MMapBacking) :
    Covering (e :: l) x b ↔ (e.2.containsAddress x = true ∧ e.2.backedBy = b) ∨ Covering l x b := by
  simp only [Covering, List.mem_cons, or_and_right, exists_or, exists_eq_left]

theorem coveringInsertKey {l : List (UInt32 × MMapRegion)} {k : UInt32} {v : MMapRegion}
    (emptyAtKey : ∀ e ∈ l, e.1 = k → ∀ y, e.2.containsAddress y = false) (x : UInt32) (b : MMapBacking) :
    Covering (insertKey l k v) x b ↔ (v.containsAddress x = true ∧ v.backedBy = b) ∨ Covering l x b := by
  constructor
  · rintro ⟨e, mem, holds, backing⟩
    rcases memInsertKey mem with new | inL
    · subst new
      exact Or.inl ⟨holds, backing⟩
    · exact Or.inr ⟨e, inL, holds, backing⟩
  · rintro (⟨holds, backing⟩ | ⟨e, mem, holds, backing⟩)
    · exact ⟨(k, v), memInsertKeySelf l k v, holds, backing⟩
    · refine ⟨e, memInsertKeyOther mem fun same => ?_, holds, backing⟩
      simp [emptyAtKey e mem same x] at holds

/-! ### One modification -/

def cutPieces (rest : List (UInt32 × MMapRegion)) (k : UInt32) (r : MMapRegion) (removeStart removeEnd : UInt32) :
    List (UInt32 × MMapRegion) :=
  (if 0 < removeStart.toNat then [(k, ⟨k, removeStart, r.backedBy⟩)] else []) ++
    if removeEnd.toNat < r.size.toNat then insertKey rest (k + removeEnd) ⟨k + removeEnd, r.size - removeEnd, r.backedBy⟩
    else rest

theorem coveringCutPieces {rest : List (UInt32 × MMapRegion)} {k : UInt32} {r : MMapRegion}
    {removeStart removeEnd : UInt32}
    (emptyAt : removeEnd.toNat < r.size.toNat → ∀ e ∈ rest, e.1 = k + removeEnd → ∀ y, e.2.containsAddress y = false)
    (x : UInt32) (b : MMapBacking) :
    Covering (cutPieces rest k r removeStart removeEnd) x b ↔
      (((0 < removeStart.toNat ∧ (⟨k, removeStart, r.backedBy⟩ : MMapRegion).containsAddress x = true) ∨
          (removeEnd.toNat < r.size.toNat ∧
            (⟨k + removeEnd, r.size - removeEnd, r.backedBy⟩ : MMapRegion).containsAddress x = true)) ∧
        r.backedBy = b) ∨ Covering rest x b := by
  have noPiece : Covering [] x b ↔ False := by simp [Covering]
  rw [cutPieces, coveringAppend]
  by_cases before : 0 < removeStart.toNat <;> by_cases after : removeEnd.toNat < r.size.toNat
  · rw [if_pos before, if_pos after, coveringCons, coveringInsertKey (emptyAt after), noPiece]
    simp only [before, after, true_and, or_false, or_and_right, or_assoc]
  · rw [if_pos before, if_neg after, coveringCons, noPiece]
    simp only [before, after, true_and, false_and, or_false]
  · rw [if_neg before, if_pos after, coveringInsertKey (emptyAt after), noPiece]
    simp only [before, after, true_and, false_and, false_or]
  · rw [if_neg before, if_neg after, noPiece]
    simp only [before, after, false_and, or_false, false_or]

theorem wellFormedAt {pre rest : List (UInt32 × MMapRegion)} {k : UInt32} {r : MMapRegion}
    (wf : WellFormed (pre ++ (k, r) :: rest)) :
    k = r.address ∧ (∀ e ∈ pre, e.1 < k) ∧ (∀ e ∈ rest, k < e.1) ∧ (∀ e ∈ pre, Apart e (k, r)) ∧
      (∀ e ∈ rest, Apart (k, r) e) := by
  obtain ⟨sorted, keyed, disjoint⟩ := wf
  simp only [List.pairwise_append, List.pairwise_cons, List.mem_cons, forall_eq_or_imp] at sorted disjoint
  exact ⟨keyed _ (List.mem_append_right _ List.mem_cons_self), fun e mem => sorted.2.2 e mem |>.1,
    sorted.2.1.1, fun e mem => disjoint.2.2 e mem |>.1, disjoint.2.1.1⟩

theorem applyModificationCut {pre rest : List (UInt32 × MMapRegion)} {k : UInt32} {r : MMapRegion}
    (wf : WellFormed (pre ++ (k, r) :: rest)) {removeStart removeEnd : UInt32}
    (ordered : removeStart.toNat ≤ removeEnd.toNat) (within : removeEnd.toNat ≤ r.size.toNat)
    (fits : r.address.toNat + r.size.toNat < 2 ^ 32) :
    MemoryRegions.applyModification (pre ++ (k, r) :: rest) (k, removeStart, removeEnd) = pre ++ cutPieces rest k r removeStart removeEnd := by
  obtain ⟨keyed, preBelow, restAbove, -, -⟩ := wellFormedAt wf
  have others : ∀ e ∈ pre ++ rest, e.1 ≠ k := by
    intro e mem
    rcases List.mem_append.mp mem with inPre | inRest
    · exact fun same => UInt32.lt_irrefl k (same ▸ preBelow e inPre)
    · exact fun same => UInt32.lt_irrefl k (same ▸ restAbove e inRest)
  have back : r.size - (r.size - removeEnd) = removeEnd := by
    rw [← UInt32.toNat_inj, UInt32.toNat_sub_of_le _ _ (UInt32.sub_le (UInt32.le_iff_toNat_le.mpr within)),
      UInt32.toNat_sub_of_le _ _ (UInt32.le_iff_toNat_le.mpr within)]
    omega
  have afterKey : (k + removeEnd).toNat = k.toNat + removeEnd.toNat := by
    rw [UInt32.toNat_add, Nat.mod_eq_of_lt (by rw [keyed]; omega)]
  have preBelowAfter : ∀ e ∈ pre, e.1 < k + removeEnd := fun e mem => by
    have := preBelow e mem
    rw [UInt32.lt_iff_toNat_lt] at this ⊢
    omega
  simp only [MemoryRegions.applyModification, removeKeyAt pre rest k r others, ← keyed, back, GT.gt, UInt32.lt_iff_toNat_lt,
    UInt32.toNat_zero, cutPieces]
  by_cases before : 0 < removeStart.toNat <;> by_cases after : removeEnd.toNat < r.size.toNat <;>
    simp only [before, after, if_true, if_false, List.nil_append, List.singleton_append]
  · rw [insertKeyAppend pre rest _ preBelow, insertKeyBelow rest _ restAbove, ← List.singleton_append,
      ← List.append_assoc, insertKeyAppend _ rest _ fun e mem => ?_]
    · simp
    rcases List.mem_append.mp mem with inPre | single
    · exact preBelowAfter e inPre
    · rw [List.mem_singleton.mp single]
      show k < k + removeEnd
      rw [UInt32.lt_iff_toNat_lt, afterKey]
      omega
  · rw [insertKeyAppend pre rest _ preBelow, insertKeyBelow rest _ restAbove]
  · rw [insertKeyAppend pre rest _ preBelowAfter]

section Cut

variable {pre rest : List (UInt32 × MMapRegion)} {k : UInt32} {r : MMapRegion}
  (wf : WellFormed (pre ++ (k, r) :: rest)) {removeStart removeEnd : UInt32}
  (ordered : removeStart.toNat ≤ removeEnd.toNat) (within : removeEnd.toNat ≤ r.size.toNat)
  (fits : r.address.toNat + r.size.toNat < 2 ^ 32)
include wf ordered within fits

omit ordered in
theorem afterPieceToNat :
    (k + removeEnd).toNat = k.toNat + removeEnd.toNat ∧ (r.size - removeEnd).toNat = r.size.toNat - removeEnd.toNat := by
  have keyed := (wellFormedAt wf).1
  refine ⟨?_, UInt32.toNat_sub_of_le _ _ (UInt32.le_iff_toNat_le.mpr within)⟩
  rw [UInt32.toNat_add, Nat.mod_eq_of_lt (by rw [keyed]; omega)]

theorem piecesContain (x : UInt32) :
    ((0 < removeStart.toNat ∧ (⟨k, removeStart, r.backedBy⟩ : MMapRegion).containsAddress x = true) ∨
      (removeEnd.toNat < r.size.toNat ∧
        (⟨k + removeEnd, r.size - removeEnd, r.backedBy⟩ : MMapRegion).containsAddress x = true)) ↔
      r.containsAddress x = true ∧ ¬ (k.toNat + removeStart.toNat ≤ x.toNat ∧ x.toNat < k.toNat + removeEnd.toNat) := by
  have keyed := (wellFormedAt wf).1
  obtain ⟨afterKey, afterSize⟩ := afterPieceToNat wf within fits
  simp only [containsAddressIff, afterKey, afterSize, ← keyed] at fits ⊢
  omega

omit ordered in
theorem emptyInside {e : UInt32 × MMapRegion} (mem : e ∈ rest) (inside : removeEnd.toNat < r.size.toNat)
    (same : e.1 = k + removeEnd) (y : UInt32) : e.2.containsAddress y = false := by
  obtain ⟨keyed, -, -, -, restApart⟩ := wellFormedAt wf
  obtain ⟨afterKey, -⟩ := afterPieceToNat wf within fits
  cases holds : e.2.containsAddress y
  · rfl
  · have start := containsStart holds
    rw [← wf.keyed e (List.mem_append_right _ (List.mem_cons_of_mem _ mem)), same] at start
    have inR : r.containsAddress (k + removeEnd) = true := by
      rw [containsAddressIff, afterKey, ← keyed]
      rw [← keyed] at fits
      omega
    simp [restApart e mem _ inR] at start

theorem cutCovering (x : UInt32) (b : MMapBacking) :
    Covering (pre ++ cutPieces rest k r removeStart removeEnd) x b ↔
      Covering pre x b ∨ (r.containsAddress x = true ∧
        ¬ (k.toNat + removeStart.toNat ≤ x.toNat ∧ x.toNat < k.toNat + removeEnd.toNat) ∧ r.backedBy = b) ∨
        Covering rest x b := by
  have empty := fun e mem inside same => emptyInside wf within fits (e := e) mem inside same
  rw [coveringAppend, coveringCutPieces (fun inside e mem same => empty e mem inside same),
    piecesContain wf ordered within fits x, and_assoc]

omit wf ordered within fits in
theorem memCutPieces {e : UInt32 × MMapRegion} (mem : e ∈ cutPieces rest k r removeStart removeEnd) :
    (0 < removeStart.toNat ∧ e = (k, ⟨k, removeStart, r.backedBy⟩)) ∨
      (removeEnd.toNat < r.size.toNat ∧ e = (k + removeEnd, ⟨k + removeEnd, r.size - removeEnd, r.backedBy⟩)) ∨ e ∈ rest := by
  simp only [cutPieces, List.mem_append] at mem
  rcases mem with head | tail
  · split at head
    · next before => exact Or.inl ⟨before, List.mem_singleton.mp head⟩
    · simp at head
  · split at tail
    · next after =>
      rcases memInsertKey tail with new | inRest
      · exact Or.inr (Or.inl ⟨after, new⟩)
      · exact Or.inr (Or.inr inRest)
    · exact Or.inr (Or.inr tail)

theorem pieceWithin {e : UInt32 × MMapRegion} (mem : e ∈ cutPieces rest k r removeStart removeEnd) (fresh : e ∉ rest) :
    k ≤ e.1 ∧ e.1 = e.2.address ∧ ∀ x, e.2.containsAddress x = true → r.containsAddress x = true := by
  have pieces := piecesContain wf ordered within fits
  obtain ⟨afterKey, afterSize⟩ := afterPieceToNat wf within fits
  rcases memCutPieces mem with ⟨before, rfl⟩ | ⟨after, rfl⟩ | inRest
  · exact ⟨UInt32.le_refl k, rfl, fun x holds => ((pieces x).mp (Or.inl ⟨before, holds⟩)).1⟩
  · refine ⟨?_, rfl, fun x holds => ((pieces x).mp (Or.inr ⟨after, holds⟩)).1⟩
    rw [UInt32.le_iff_toNat_le, afterKey]
    omega
  · exact absurd inRest fresh

theorem cutSorted : (pre ++ cutPieces rest k r removeStart removeEnd).Pairwise fun a b => a.1 < b.1 := by
  obtain ⟨-, preBelow, restAbove, -, -⟩ := wellFormedAt wf
  have sorted := wf.sorted
  simp only [List.pairwise_append, List.pairwise_cons] at sorted
  obtain ⟨afterKey, -⟩ := afterPieceToNat wf within fits
  have aboveAll : ∀ e ∈ cutPieces rest k r removeStart removeEnd, k ≤ e.1 := fun e mem => by
    by_cases fresh : e ∈ rest
    · exact UInt32.le_of_lt (restAbove e fresh)
    · exact (pieceWithin wf ordered within fits mem fresh).1
  refine List.pairwise_append.mpr ⟨sorted.1, ?_, fun a inPre b inMid => ?_⟩
  · simp only [cutPieces, List.pairwise_append]
    refine ⟨by split <;> simp, by split <;> [exact insertKeySorted sorted.2.1.2 _ _; exact sorted.2.1.2],
      fun a inHead b inTail => ?_⟩
    split at inHead
    · next before =>
      rw [List.mem_singleton.mp inHead]
      split at inTail
      · rcases memInsertKey inTail with new | inRest
        · rw [new]
          show k < k + removeEnd
          rw [UInt32.lt_iff_toNat_lt, afterKey]
          omega
        · exact restAbove b inRest
      · exact restAbove b inTail
    · simp at inHead
  · exact UInt32.lt_of_lt_of_le (preBelow a inPre) (aboveAll b inMid)

theorem cutDisjoint : (pre ++ cutPieces rest k r removeStart removeEnd).Pairwise Apart := by
  obtain ⟨-, -, -, preApart, restApart⟩ := wellFormedAt wf
  have disjoint := wf.disjoint
  simp only [List.pairwise_append, List.pairwise_cons] at disjoint
  obtain ⟨afterKey, -⟩ := afterPieceToNat wf within fits
  have afterApart : removeEnd.toNat < r.size.toNat → ∀ e ∈ rest,
      Apart (k + removeEnd, ⟨k + removeEnd, r.size - removeEnd, r.backedBy⟩) e := fun after e mem x holds =>
    restApart e mem x (((piecesContain wf ordered within fits x).mp (Or.inr ⟨after, holds⟩)).1)
  refine List.pairwise_append.mpr ⟨disjoint.1, ?_, fun a inPre b inMid => ?_⟩
  · simp only [cutPieces, List.pairwise_append]
    refine ⟨by split <;> simp, ?_, fun a inHead b inTail => ?_⟩
    · split
      · next after => exact insertKeyDisjoint disjoint.2.1.2 (afterApart after)
      · exact disjoint.2.1.2
    · split at inHead
      · next before =>
        rw [List.mem_singleton.mp inHead]
        intro x holds
        have inR := ((piecesContain wf ordered within fits x).mp (Or.inl ⟨before, holds⟩)).1
        split at inTail
        · rcases memInsertKey inTail with new | inRest
          · rw [new]
            cases holdsAfter : (⟨k + removeEnd, r.size - removeEnd, r.backedBy⟩ : MMapRegion).containsAddress x
            · rfl
            · rw [containsAddressIff] at holdsAfter holds
              dsimp only at holdsAfter holds
              rw [afterKey] at holdsAfter
              omega
          · exact restApart b inRest x inR
        · exact restApart b inTail x inR
      · simp at inHead
  · by_cases fresh : b ∈ rest
    · exact disjoint.2.2 a inPre b (List.mem_cons_of_mem _ fresh)
    · intro x holds
      cases inB : b.2.containsAddress x
      · rfl
      · have outside := preApart a inPre x holds
        simp [(pieceWithin wf ordered within fits inMid fresh).2.2 x inB] at outside

theorem cutWellFormed : WellFormed (pre ++ cutPieces rest k r removeStart removeEnd) := by
  refine ⟨cutSorted wf ordered within fits, fun e mem => ?_, cutDisjoint wf ordered within fits⟩
  rcases List.mem_append.mp mem with inPre | inMid
  · exact wf.keyed e (List.mem_append_left _ inPre)
  · by_cases fresh : e ∈ rest
    · exact wf.keyed e (List.mem_append_right _ (List.mem_cons_of_mem _ fresh))
    · exact (pieceWithin wf ordered within fits inMid fresh).2.1

end Cut

/-! ### The scan -/

def cutByScan (pre L : List (UInt32 × MMapRegion)) (unmapStart unmapLength : UInt32) : List (UInt32 × MMapRegion) :=
  (MemoryRegions.munmapScan unmapStart unmapLength L).foldl MemoryRegions.applyModification (pre ++ L)

def ScanCuts (L : List (UInt32 × MMapRegion)) : Prop :=
  ∀ (pre : List (UInt32 × MMapRegion)) (unmapStart unmapLength : UInt32), WellFormed (pre ++ L) →
    unmapStart.toNat + unmapLength.toNat < 2 ^ 32 →
    (∀ e ∈ pre, ∀ x, unmapStart.toNat ≤ x.toNat → x.toNat < unmapStart.toNat + unmapLength.toNat →
      e.2.containsAddress x = false) →
    WellFormed (cutByScan pre L unmapStart unmapLength) ∧ ∀ x b, Covering (cutByScan pre L unmapStart unmapLength) x b ↔
      ¬ (unmapStart.toNat ≤ x.toNat ∧ x.toNat < unmapStart.toNat + unmapLength.toNat) ∧ Covering (pre ++ L) x b

theorem scanCutsNil : ScanCuts [] := by
  intro pre unmapStart unmapLength wf _ clear
  simp only [cutByScan, MemoryRegions.munmapScan, List.foldl_nil, List.append_nil] at wf ⊢
  refine ⟨wf, fun x b => ⟨fun covering => ⟨fun inWindow => ?_, covering⟩, fun both => both.2⟩⟩
  obtain ⟨e, mem, holds, -⟩ := covering
  simp [clear e mem x inWindow.1 inWindow.2] at holds

theorem outsideShrink {C : Prop} {u u' e x : Nat} (after : u ≤ u') (skipped : u ≤ x → x < u' → ¬ C) :
    (¬ (u' ≤ x ∧ x < e) ∧ C) ↔ (¬ (u ≤ x ∧ x < e) ∧ C) := by
  constructor
  · rintro ⟨out, holds⟩
    refine ⟨fun ⟨low, high⟩ => ?_, holds⟩
    by_cases early : x < u'
    · exact skipped low early holds
    · exact out ⟨by omega, high⟩
  · rintro ⟨out, holds⟩
    exact ⟨fun ⟨low, high⟩ => out ⟨by omega, high⟩, holds⟩

theorem cutWindow {pre rest : List (UInt32 × MMapRegion)} {k : UInt32} {r : MMapRegion}
    (wf : WellFormed (pre ++ (k, r) :: rest)) {removeStart removeEnd : UInt32}
    (ordered : removeStart.toNat ≤ removeEnd.toNat) (within : removeEnd.toNat ≤ r.size.toNat)
    (fits : r.address.toNat + r.size.toNat < 2 ^ 32) {u : Nat} (start : u ≤ k.toNat + removeStart.toNat)
    (clear : ∀ e ∈ pre, ∀ x, u ≤ x.toNat → x.toNat < k.toNat + removeEnd.toNat → e.2.containsAddress x = false)
    (skipped : ∀ e ∈ (k, r) :: rest, ∀ x, u ≤ x.toNat → x.toNat < k.toNat + removeStart.toNat →
      e.2.containsAddress x = false) (x : UInt32) (b : MMapBacking) :
    Covering (pre ++ cutPieces rest k r removeStart removeEnd) x b ↔
      ¬ (u ≤ x.toNat ∧ x.toNat < k.toNat + removeEnd.toNat) ∧ Covering (pre ++ (k, r) :: rest) x b := by
  obtain ⟨keyed, -, -, -, restApart⟩ := wellFormedAt wf
  have inR : ∀ x, k.toNat + removeStart.toNat ≤ x.toNat → x.toNat < k.toNat + removeEnd.toNat →
      r.containsAddress x = true := by
    intro x low high
    rw [containsAddressIff, ← keyed]
    rw [← keyed] at fits
    omega
  rw [cutCovering wf ordered within fits, coveringAppend, coveringCons]
  constructor
  · rintro (inPre | ⟨holdsX, outside, backing⟩ | inRest)
    · refine ⟨fun ⟨low, high⟩ => ?_, Or.inl inPre⟩
      obtain ⟨e, mem, holdsE, -⟩ := inPre
      simp [clear e mem x low high] at holdsE
    · refine ⟨fun ⟨low, high⟩ => ?_, Or.inr (Or.inl ⟨holdsX, backing⟩)⟩
      have early : x.toNat < k.toNat + removeStart.toNat := by omega
      simp [skipped (k, r) List.mem_cons_self x low early] at holdsX
    · refine ⟨fun ⟨low, high⟩ => ?_, Or.inr (Or.inr inRest)⟩
      obtain ⟨e, mem, holdsE, -⟩ := inRest
      by_cases early : x.toNat < k.toNat + removeStart.toNat
      · simp [skipped e (List.mem_cons_of_mem _ mem) x low early] at holdsE
      · simp [restApart e mem x (inR x (by omega) high)] at holdsE
  · rintro ⟨outside, inPre | ⟨holdsX, backing⟩ | inRest⟩
    · exact Or.inl inPre
    · exact Or.inr (Or.inl ⟨holdsX, fun ⟨low, high⟩ => outside ⟨by omega, high⟩, backing⟩)
    · exact Or.inr (Or.inr inRest)

theorem outsideJoin {C : Prop} {u c e x : Nat} (first : u ≤ c) (second : c ≤ e) :
    (¬ (c ≤ x ∧ x < e) ∧ ¬ (u ≤ x ∧ x < c) ∧ C) ↔ (¬ (u ≤ x ∧ x < e) ∧ C) := by
  constructor
  · rintro ⟨late, early, holds⟩
    exact ⟨fun ⟨low, high⟩ => if before : x < c then early ⟨low, before⟩ else late ⟨by omega, high⟩, holds⟩
  · rintro ⟨out, holds⟩
    exact ⟨fun ⟨low, high⟩ => out ⟨by omega, high⟩, fun ⟨low, high⟩ => out ⟨low, by omega⟩, holds⟩

theorem notCovering {l : List (UInt32 × MMapRegion)} {x : UInt32} (empty : ∀ e ∈ l, e.2.containsAddress x = false)
    (b : MMapBacking) : ¬ Covering l x b := by
  rintro ⟨e, mem, holds, -⟩
  simp [empty e mem] at holds

theorem belowKeyFree {pre rest : List (UInt32 × MMapRegion)} {k : UInt32} {r : MMapRegion}
    (wf : WellFormed (pre ++ (k, r) :: rest)) :
    ∀ e ∈ (k, r) :: rest, ∀ x, x.toNat < k.toNat → e.2.containsAddress x = false := by
  obtain ⟨keyed, -, restAbove, -, -⟩ := wellFormedAt wf
  intro e mem x below
  have start : k.toNat ≤ e.2.address.toNat := by
    rcases List.mem_cons.mp mem with rfl | inRest
    · rw [← keyed]
    · have above := restAbove e inRest
      rw [wf.keyed e (List.mem_append_right _ (List.mem_cons_of_mem _ inRest)), UInt32.lt_iff_toNat_lt] at above
      omega
  cases holds : e.2.containsAddress x
  · rfl
  · rw [containsAddressIff] at holds
    omega

theorem adjustWindow (r : MMapRegion) {us ul : UInt32} (fits : us.toNat + ul.toNat < 2 ^ 32) :
    ∃ us' ul', (if (decide (us < r.address) && decide (us + ul > r.address)) = true then
        (us + (r.address - us), ul - (r.address - us)) else (us, ul)) = (us', ul') ∧
      us'.toNat + ul'.toNat = us.toNat + ul.toNat ∧ us.toNat ≤ us'.toNat ∧
      (us.toNat < us'.toNat → us'.toNat = r.address.toNat) ∧
      (r.containsAddress us' = false → ∀ x, us'.toNat ≤ x.toNat → x.toNat < us.toNat + ul.toNat →
        r.containsAddress x = false) := by
  split
  · next adjust =>
    simp only [Bool.and_eq_true, decide_eq_true_eq, gt_iff_lt, UInt32.lt_iff_toNat_lt, UInt32.toNat_add,
      Nat.mod_eq_of_lt fits] at adjust
    have gap : (r.address - us).toNat = r.address.toNat - us.toNat :=
      UInt32.toNat_sub_of_le _ _ (UInt32.le_iff_toNat_le.mpr (by omega))
    have shrunk : (ul - (r.address - us)).toNat = ul.toNat - (r.address.toNat - us.toNat) := by
      rw [UInt32.toNat_sub_of_le _ _ (UInt32.le_iff_toNat_le.mpr (by omega)), gap]
    have moved : us + (r.address - us) = r.address := by grind
    refine ⟨r.address, ul - (r.address - us), by rw [moved], by omega, by omega, fun _ => rfl, ?_⟩
    intro notStart x _ _
    cases holds : r.containsAddress x
    · rfl
    · simp [containsStart holds] at notStart
  · next stay =>
    refine ⟨us, ul, rfl, rfl, Nat.le_refl _, fun early => absurd early (Nat.lt_irrefl _), ?_⟩
    intro notStart x low high
    simp only [Bool.and_eq_true, decide_eq_true_eq, gt_iff_lt, UInt32.lt_iff_toNat_lt, UInt32.toNat_add,
      Nat.mod_eq_of_lt fits, not_and] at stay
    cases holds : r.containsAddress x
    · rfl
    · rw [containsAddressIff] at holds
      have atStart : r.containsAddress us = true := by
        rw [containsAddressIff]
        by_cases below : us.toNat < r.address.toNat
        · exact absurd (stay below) (by omega)
        · omega
      simp [atStart] at notStart

theorem removeAmounts (r : MMapRegion) {us' ul' : UInt32} (span : r.address.toNat ≤ us'.toNat ∧
      us'.toNat < r.address.toNat + r.size.toNat ∧ r.address.toNat + r.size.toNat < 2 ^ 32) :
    ∃ toRemove remaining,
      (if r.address + r.size - us' > ul' then (ul', 0)
        else (r.address + r.size - us', ul' - (r.address + r.size - us'))) = (toRemove, remaining) ∧
      toRemove.toNat + remaining.toNat = ul'.toNat ∧ us'.toNat + toRemove.toNat ≤ r.address.toNat + r.size.toNat ∧
      (remaining.toNat = 0 ∨ us'.toNat + toRemove.toNat = r.address.toNat + r.size.toNat) := by
  have canUnmap : (r.address + r.size - us').toNat = r.address.toNat + r.size.toNat - us'.toNat := by
    have whole : (r.address + r.size).toNat = r.address.toNat + r.size.toNat := by
      rw [UInt32.toNat_add, Nat.mod_eq_of_lt span.2.2]
    rw [UInt32.toNat_sub_of_le _ _ (UInt32.le_iff_toNat_le.mpr (by omega)), whole]
  split
  · next more =>
    rw [gt_iff_lt, UInt32.lt_iff_toNat_lt, canUnmap] at more
    exact ⟨_, _, rfl, by simp, by omega, Or.inl rfl⟩
  · next fewer =>
    rw [gt_iff_lt, UInt32.lt_iff_toNat_lt, canUnmap] at fewer
    have left : (ul' - (r.address + r.size - us')).toNat =
        ul'.toNat - (r.address.toNat + r.size.toNat - us'.toNat) := by
      rw [UInt32.toNat_sub_of_le _ _ (UInt32.le_iff_toNat_le.mpr (by omega)), canUnmap]
    exact ⟨_, _, rfl, by rw [left, canUnmap]; omega, by rw [canUnmap]; omega, Or.inr (by rw [canUnmap]; omega)⟩

theorem scanCutsCons (k : UInt32) (r : MMapRegion) {rest : List (UInt32 × MMapRegion)} (ih : ScanCuts rest) :
    ScanCuts ((k, r) :: rest) := by
  intro pre us ul wf fits clear
  have keyed := (wellFormedAt wf).1
  obtain ⟨us', ul', window, sum, after, moved, untouched⟩ := adjustWindow r fits
  have skipped : ∀ e ∈ (k, r) :: rest, ∀ x, us.toNat ≤ x.toNat → x.toNat < us'.toNat →
      e.2.containsAddress x = false := fun e mem x low high =>
    belowKeyFree wf e mem x (by rw [keyed, ← moved (by omega)]; exact high)
  have inWindow : ∀ x b, us.toNat ≤ x.toNat → x.toNat < us'.toNat → ¬ Covering (pre ++ (k, r) :: rest) x b := by
    intro x b low high
    refine notCovering (fun e mem => ?_) b
    rcases List.mem_append.mp mem with inPre | inRegions
    · exact clear e inPre x low (by omega)
    · exact skipped e inRegions x low high
  obtain ⟨start, stop, range⟩ : ∃ start stop, r.range = (start, stop) := ⟨_, _, rfl⟩
  obtain ⟨rfl, rfl⟩ : start = r.address ∧ stop = r.address + r.size := by
    simp only [MMapRegion.range, Prod.mk.injEq] at range
    exact ⟨range.1.symm, range.2.symm⟩
  simp only [cutByScan]
  rw [MemoryRegions.munmapScan, range]
  dsimp only
  rw [window]
  dsimp only
  by_cases holds : r.containsAddress us' = true
  · have test : (decide (r.address ≤ us') && decide (us' < r.address + r.size)) = true := holds
    rw [if_pos test]
    have span := (containsAddressIff r us').mp holds
    obtain ⟨toRemove, remaining, amounts, parts, reach, finish⟩ := removeAmounts r span
    rw [amounts]
    dsimp only
    subst keyed
    have removeStart : (us' - r.address).toNat = us'.toNat - r.address.toNat := UInt32.toNat_sub_of_le _ _ (UInt32.le_iff_toNat_le.mpr span.1)
    have removeEnd : (us' - r.address + toRemove).toNat = us'.toNat - r.address.toNat + toRemove.toNat := by
      rw [UInt32.toNat_add, removeStart, Nat.mod_eq_of_lt (by omega)]
    have ordered : (us' - r.address).toNat ≤ (us' - r.address + toRemove).toNat := by omega
    have within : (us' - r.address + toRemove).toNat ≤ r.size.toNat := by omega
    have start : us.toNat ≤ r.address.toNat + (us' - r.address).toNat := by omega
    have skipped' : ∀ e ∈ (r.address, r) :: rest, ∀ x, us.toNat ≤ x.toNat → x.toNat < r.address.toNat + (us' - r.address).toNat →
        e.2.containsAddress x = false := fun e mem x low high => skipped e mem x low (by omega)
    by_cases done : remaining = 0
    · have last : ((remaining == 0) = true) := by simp [done]
      rw [if_pos last, List.foldl_cons, List.foldl_nil, applyModificationCut wf ordered within span.2.2]
      have ends : r.address.toNat + (us' - r.address + toRemove).toNat = us.toNat + ul.toNat := by
        rw [done, UInt32.toNat_zero] at parts
        omega
      refine ⟨cutWellFormed wf ordered within span.2.2, fun x b => ?_⟩
      rw [cutWindow wf ordered within span.2.2 start (fun e mem x low high => clear e mem x low (by omega)) skipped' x b,
        ends]
    · have going : ¬ ((remaining == 0) = true) := by simpa using done
      have through : us'.toNat + toRemove.toNat = r.address.toNat + r.size.toNat := by
        rcases finish with zero | full
        · exact absurd (UInt32.toNat_inj.mp (by rw [zero, UInt32.toNat_zero])) done
        · exact full
      rw [if_neg going, List.foldl_cons, applyModificationCut wf ordered within span.2.2]
      have full : (us' - r.address + toRemove).toNat = r.size.toNat := by omega
      have pieces : cutPieces rest r.address r (us' - r.address) (us' - r.address + toRemove) =
          (if 0 < (us' - r.address).toNat then [(r.address, ⟨r.address, us' - r.address, r.backedBy⟩)] else []) ++ rest := by
        simp [cutPieces, full]
      have cut := cutWellFormed wf ordered within span.2.2
      have next := ih (pre ++ if 0 < (us' - r.address).toNat then [(r.address, ⟨r.address, us' - r.address, r.backedBy⟩)]
          else []) (us' + toRemove) remaining (by rwa [List.append_assoc, ← pieces])
      have resumed : (us' + toRemove).toNat = us'.toNat + toRemove.toNat := by
        rw [UInt32.toNat_add, Nat.mod_eq_of_lt (by omega)]
      obtain ⟨nextFormed, nextCovering⟩ := next (by omega) fun e mem x low high => by
        rcases List.mem_append.mp mem with inPre | inBefore
        · exact clear e inPre x (by omega) (by omega)
        · split at inBefore
          · rw [List.mem_singleton.mp inBefore]
            cases holdsX : (⟨r.address, us' - r.address, r.backedBy⟩ : MMapRegion).containsAddress x
            · rfl
            · rw [containsAddressIff] at holdsX
              dsimp only at holdsX
              omega
          · simp at inBefore
      simp only [cutByScan, List.append_assoc, ← pieces] at nextFormed nextCovering
      refine ⟨nextFormed, fun x b => ?_⟩
      rw [nextCovering, cutWindow wf ordered within span.2.2 start
        (fun e mem x low high => clear e mem x low (by omega)) skipped' x b, resumed,
        show us'.toNat + toRemove.toNat + remaining.toNat = us.toNat + ul.toNat by omega,
        show r.address.toNat + (us' - r.address + toRemove).toNat = us'.toNat + toRemove.toNat by omega]
      exact outsideJoin (by omega) (by omega)
  · have test : ¬ (decide (r.address ≤ us') && decide (us' < r.address + r.size)) = true := holds
    rw [if_neg test]
    have next := ih (pre ++ [(k, r)]) us' ul' (by rwa [List.append_assoc]) (by omega) (fun e mem x low high => by
      rcases List.mem_append.mp mem with inPre | single
      · exact clear e inPre x (by omega) (by omega)
      · rw [List.mem_singleton.mp single]
        exact untouched (by simpa using holds) x low (by omega))
    simp only [cutByScan, List.append_assoc, List.singleton_append] at next
    refine ⟨next.1, fun x b => (next.2 x b).trans ?_⟩
    rw [sum]
    exact outsideShrink after fun low high => inWindow x b low high

theorem scanCuts : ∀ L, ScanCuts L
  | [] => scanCutsNil
  | (k, r) :: rest => scanCutsCons k r (scanCuts rest)

theorem apartOfMem {regions : List (UInt32 × MMapRegion)} (disjoint : regions.Pairwise Apart) {a b : UInt32 × MMapRegion}
    (memA : a ∈ regions) (memB : b ∈ regions) (other : a ≠ b) : Apart a b := by
  induction regions with
  | nil => cases memA
  | cons c rest ih =>
    rw [List.pairwise_cons] at disjoint
    rcases List.mem_cons.mp memA with rfl | inA <;> rcases List.mem_cons.mp memB with rfl | inB
    · exact absurd rfl other
    · exact disjoint.1 b inB
    · exact apartSymm (disjoint.1 a inA)
    · exact ih disjoint.2 inA inB

theorem mappingBacking {regions : List (UInt32 × MMapRegion)} (disjoint : regions.Pairwise Apart) (x : UInt32)
    (b : MMapBacking) : (mappingContaining regions x).map MMapRegion.backedBy = some b ↔ Covering regions x b := by
  simp only [mappingContaining, Option.map_map, Option.map_eq_some_iff, Function.comp_apply]
  constructor
  · rintro ⟨e, found, backing⟩
    have holds : e.2.containsAddress x = true := by simpa using List.find?_some found
    exact ⟨e, List.mem_of_find?_eq_some found, holds, backing⟩
  · rintro ⟨e, mem, holds, backing⟩
    obtain ⟨e', found⟩ := Option.isSome_iff_exists.mp
      ((@List.find?_isSome _ regions fun entry => entry.2.containsAddress x).mpr ⟨e, mem, holds⟩)
    have holds' : e'.2.containsAddress x = true := by simpa using List.find?_some found
    refine ⟨e', found, ?_⟩
    by_cases same : e' = e
    · rw [same, backing]
    · have apart := apartOfMem disjoint (List.mem_of_find?_eq_some found) mem same
      simp [apart x holds'] at holds

theorem munmapRemovesRange (m : MemoryRegions) (wf : WellFormed m.mmapRegions) (addr length : UInt32)
    (pages : length &&& 0xfff = 0) (below : addr.toNat + length.toNat < userKernelBarrier.toNat) :
    ∃ m', m.munmap addr length = .ok (m', (addr, addr + length)) ∧ m' = { m with mmapRegions := m'.mmapRegions } ∧
      WellFormed m'.mmapRegions ∧ ∀ x, (m'.getMappingContainingAddress x).map MMapRegion.backedBy =
        if addr ≤ x ∧ x < addr + length then none else (m.getMappingContainingAddress x).map MMapRegion.backedBy := by
  have barrier : userKernelBarrier.toNat = 0xc0000000 := rfl
  have finish : (addr + length).toNat = addr.toNat + length.toNat := by
    rw [UInt32.toNat_add, Nat.mod_eq_of_lt (by omega)]
  obtain ⟨formed, covering⟩ := scanCuts m.mmapRegions [] addr length wf (by omega) (by simp)
  refine ⟨{ m with mmapRegions := cutByScan [] m.mmapRegions addr length }, ?_, rfl, formed, fun x => ?_⟩
  · have inside : ¬ (addr ≥ userKernelBarrier || addr + length ≥ userKernelBarrier) = true := by
      simp only [ge_iff_le, Bool.or_eq_true, decide_eq_true_eq, UInt32.le_iff_toNat_le, finish]
      omega
    simp [MemoryRegions.munmap, pages, inside, cutByScan]
    rfl
  · refine Option.ext fun b => ?_
    rw [MemoryRegions.getMappingContainingAddress, mappingBacking formed.disjoint, covering, List.nil_append]
    by_cases window : addr ≤ x ∧ x < addr + length
    · rw [if_pos window]
      rw [UInt32.le_iff_toNat_le, UInt32.lt_iff_toNat_lt, finish] at window
      simp [window]
    · rw [if_neg window, MemoryRegions.getMappingContainingAddress, mappingBacking wf.disjoint]
      rw [UInt32.le_iff_toNat_le, UInt32.lt_iff_toNat_lt, finish] at window
      simp [window]

def threePages : MemoryRegions := { MemoryRegions.new with mmapRegions := [(0x1000, ⟨0x1000, 0x3000, .anonymous⟩)] }

theorem munmapMiddlePage :
    WellFormed threePages.mmapRegions ∧ (0x1000 : UInt32) &&& 0xfff = 0 ∧
      (0x2000 : UInt32).toNat + (0x1000 : UInt32).toNat < userKernelBarrier.toNat ∧
      ∃ m', threePages.munmap 0x2000 0x1000 = .ok (m', (0x2000, 0x2000 + 0x1000)) ∧
        m' = { threePages with mmapRegions := m'.mmapRegions } ∧ WellFormed m'.mmapRegions ∧
        ∀ x, (m'.getMappingContainingAddress x).map MMapRegion.backedBy =
          if 0x2000 ≤ x ∧ x < 0x2000 + 0x1000 then none else (threePages.getMappingContainingAddress x).map MMapRegion.backedBy :=
  have formed : WellFormed threePages.mmapRegions :=
    ⟨List.pairwise_singleton _ _, by simp [threePages], List.pairwise_singleton _ _⟩
  ⟨formed, by decide, by decide, munmapRemovesRange threePages formed 0x2000 0x1000 (by decide) (by decide)⟩

end ImmDosNx.Regions
