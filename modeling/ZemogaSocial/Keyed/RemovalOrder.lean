import ZemogaSocial.Keyed.Table

namespace Keyed

variable {ρ : Type*}

theorem moveLastOver_moved (front back : List ρ) (row last : ρ) :
    moveLastOver (front ++ row :: (back ++ [last])) front.length = front ++ last :: back := by
  have shape : front ++ row :: (back ++ [last]) = (front ++ row :: back) ++ [last] := by simp
  have overwritten : ((front ++ row :: back) ++ [last]).set front.length last =
      (front ++ last :: back) ++ [last] := by simp
  rw [moveLastOver, shape, List.getLast?_concat]
  simp only [overwritten, List.dropLast_concat]

theorem moveLastOver_final (front : List ρ) (row : ρ) :
    moveLastOver (front ++ [row]) front.length = front := by
  simp [moveLastOver]

theorem removeUnordered_congr {p q : ρ → Bool} {rows : List ρ} (same : ∀ row ∈ rows, p row = q row) :
    removeUnordered p rows = removeUnordered q rows := by
  have indices : rows.findIdxs p = rows.findIdxs q := by
    rw [List.findIdxs_eq_filterMap_zipIdx, List.findIdxs_eq_filterMap_zipIdx]
    apply List.filterMap_congr
    intro entry member
    rw [same entry.1 (List.fst_mem_of_mem_zipIdx member)]
  rw [removeUnordered, removeUnordered, indices]

theorem removeUnordered_absent {p : ρ → Bool} {rows : List ρ} (absent : ∀ row ∈ rows, p row = false) :
    removeUnordered p rows = rows := by
  have indices : rows.findIdxs p = [] := List.findIdxs_eq_nil_iff.mpr absent
  rw [removeUnordered, indices, List.foldr_nil]

theorem removeUnordered_single {p : ρ → Bool} {front back : List ρ} {row : ρ}
    (before : ∀ other ∈ front, p other = false) (matched : p row = true)
    (after : ∀ other ∈ back, p other = false) :
    removeUnordered p (front ++ row :: back) = moveLastOver (front ++ row :: back) front.length := by
  have first : front.findIdxs p = [] := List.findIdxs_eq_nil_iff.mpr before
  have later : ∀ start, back.findIdxs p start = [] := fun _ => List.findIdxs_eq_nil_iff.mpr after
  rw [removeUnordered, List.findIdxs_append, first, List.findIdxs_cons, if_pos matched, later]
  simp

section Marks

/-- Which rows are removed, in table order, for the others to keep their order: at most one row is
    kept from the first removed one on; or as many rows as are kept from there on are removed at
    once, the last rows, of which one may stay, go as well, and those in between keep their order. -/
inductive InPlace : List Bool → Prop where
  | kept {marks : List Bool} (rest : InPlace marks) : InPlace (false :: marks)
  | few {marks : List Bool} (alone : marks.count false ≤ 1) : InPlace marks
  | ends {middle : List Bool} (rest : InPlace middle) (last : Nat) (few : last ≤ 1) :
      InPlace (List.replicate (last + middle.count false) true ++ (middle ++
        (List.replicate last false ++ List.replicate (middle.count false) true)))

variable {gone : ρ → Bool} {rows front middle last back : List ρ}

theorem map_eq_replicate {mark : Bool} {n : Nat} (marked : rows.map gone = List.replicate n mark) :
    rows.length = n ∧ ∀ row ∈ rows, gone row = mark := by
  rw [List.eq_replicate_iff, List.length_map, List.forall_mem_map] at marked
  exact marked

theorem replicate_of_forall {mark : Bool} (marked : ∀ row ∈ rows, gone row = mark) :
    rows.map gone = List.replicate rows.length mark := by
  rw [List.eq_replicate_iff, List.length_map, List.forall_mem_map]
  exact ⟨rfl, marked⟩

theorem count_kept (gone : ρ → Bool) (rows : List ρ) :
    (rows.map gone).count false = (rows.filter fun row => !gone row).length := by
  rw [List.count, List.countP_map, List.countP_eq_length_filter]
  simp [Function.comp_def]

theorem perm_eq_of_few {left right : List ρ} (perm : left.Perm right) (few : right.length ≤ 1) :
    left = right := by
  rcases Nat.le_one_iff_eq_zero_or_eq_one.mp few with zero | one
  · rw [List.length_eq_zero_iff.mp zero] at perm ⊢
    exact perm.eq_nil
  · obtain ⟨row, only⟩ := List.length_eq_one_iff.mp one
    rw [only] at perm ⊢
    exact List.perm_singleton.mp perm

theorem filter_kept_of_gone (marked : ∀ row ∈ rows, gone row = true) :
    (rows.filter fun row => !gone row) = [] := by
  apply List.filter_eq_nil_iff.mpr
  intro row member
  simp [marked row member]

theorem filter_kept_of_kept (marked : ∀ row ∈ rows, gone row = false) :
    (rows.filter fun row => !gone row) = rows := by
  apply List.filter_eq_self.mpr
  intro row member
  simp [marked row member]

theorem filter_kept_ends (frontGone : ∀ row ∈ front, gone row = true)
    (lastKept : ∀ row ∈ last, gone row = false) (backGone : ∀ row ∈ back, gone row = true) :
    (front ++ (middle ++ (last ++ back))).filter (fun row => !gone row) =
      middle.filter (fun row => !gone row) ++ last := by
  rw [List.filter_append, List.filter_append, List.filter_append, filter_kept_of_gone frontGone,
    filter_kept_of_kept lastKept, filter_kept_of_gone backGone, List.nil_append, List.append_nil]

/-- A single row is removed in place only as the last row or the one before it. -/
theorem inPlace_single {i k : Nat} :
    InPlace (List.replicate i false ++ true :: List.replicate k false) ↔ k ≤ 1 := by
  apply Iff.intro
  · intro inPlace
    generalize shape : List.replicate i false ++ true :: List.replicate k false = marks at inPlace
    induction inPlace generalizing i with
    | kept rest ih =>
      cases i with
      | zero => cases shape
      | succ i => exact ih (List.cons.inj shape).2
    | few alone =>
      rw [← shape] at alone
      simp at alone
      omega
    | ends rest last few ih =>
      have removed := congrArg (List.count true) shape
      have stays := congrArg (List.count false) shape
      simp [List.count_replicate] at removed stays
      omega
  · intro few
    induction i with
    | zero => exact .few (by simpa using few)
    | succ i ih => exact .kept ih

theorem first_kept (gone : ρ → Bool) (rows : List ρ) : (∀ row ∈ rows, gone row = true) ∨
    ∃ front row back, rows = front ++ row :: back ∧ (∀ other ∈ front, gone other = true) ∧
      gone row = false := by
  cases found : rows.find? fun row => !gone row with
  | none =>
    left
    intro row member
    simpa using List.find?_eq_none.mp found row member
  | some row =>
    right
    obtain ⟨kept, front, back, split, before⟩ := List.find?_eq_some_iff_append.mp found
    refine ⟨front, row, back, split, ?_, by simpa using kept⟩
    intro other member
    simpa using before other member

theorem gone_add_kept (gone : ρ → Bool) (rows : List ρ) :
    (rows.filter gone).length + (rows.filter fun row => !gone row).length = rows.length := by
  have both := List.length_eq_length_filter_add (l := rows) gone
  omega

theorem turned_removed (distinct : (back.reverse ++ middle).Nodup) (gone : ρ → Bool) :
    (middle.filter gone ++ back.filter gone).Nodup ∧
      ∀ other ∈ middle.filter gone ++ back.filter gone, other ∈ back.reverse ++ middle := by
  have perm : (middle ++ back).Perm (back.reverse ++ middle) :=
    List.perm_append_comm.trans ((List.reverse_perm back).symm.append_right middle)
  rw [← List.filter_append]
  apply And.intro
  · exact (perm.nodup_iff.mpr distinct).filter _
  · intro other member
    exact perm.mem_iff.mp (List.mem_filter.mp member).1

/-- A front of removed rows is long enough to set as many rows as are kept aside at both ends. -/
theorem split_ends {count : Nat} (frontGone : ∀ row ∈ front, gone row = true)
    (kept : ((front ++ back).filter fun row => !gone row).length = count) (long : count ≤ front.length) :
    ∃ first middle tail, front ++ back = first ++ (middle ++ tail) ∧ first.length = count ∧
      tail.length = count ∧ ∀ row ∈ first, gone row = true := by
  have taken : ∀ row ∈ front.take count, gone row = true :=
    fun row member => frontGone row (List.mem_of_mem_take member)
  have remaining : front ++ back = front.take count ++ (front.drop count ++ back) := by
    rw [← List.append_assoc, List.take_append_drop]
  generalize others : front.drop count ++ back = rest at remaining
  have enough : count ≤ rest.length := by
    rw [remaining, List.filter_append, filter_kept_of_gone taken, List.nil_append] at kept
    rw [← kept]
    exact List.length_filter_le _ rest
  refine ⟨front.take count, rest.take (rest.length - count), rest.drop (rest.length - count), ?_, ?_, ?_, taken⟩
  · rw [List.take_append_drop]
    exact remaining
  · rw [List.length_take]
    exact Nat.min_eq_left long
  · rw [List.length_drop]
    omega

end Marks

section Rows

variable [DecidableEq ρ]

def removeRow (rows : List ρ) (row : ρ) : List ρ := removeUnordered (fun other => decide (other = row)) rows

/-- One removal after the other, each with a move of its own. -/
def removeEach (rows removed : List ρ) : List ρ := removed.foldl removeRow rows

theorem removeRow_split {front back : List ρ} {row : ρ} (distinct : (front ++ row :: back).Nodup) :
    removeRow (front ++ row :: back) row = moveLastOver (front ++ row :: back) front.length := by
  rw [List.nodup_append, List.nodup_cons] at distinct
  rcases distinct with ⟨_, ⟨unrepeated, _⟩, apart⟩
  apply removeUnordered_single
  · intro other member
    exact decide_eq_false (apart other member row List.mem_cons_self)
  · exact decide_eq_true rfl
  · intro other member
    apply decide_eq_false
    intro same
    subst same
    exact unrepeated member

theorem removeRow_moved {front back : List ρ} {row last : ρ}
    (distinct : (front ++ row :: (back ++ [last])).Nodup) :
    removeRow (front ++ row :: (back ++ [last])) row = front ++ last :: back := by
  rw [removeRow_split distinct, moveLastOver_moved]

theorem removeRow_final {front : List ρ} {row : ρ} (distinct : (front ++ [row]).Nodup) :
    removeRow (front ++ [row]) row = front := by
  rw [removeRow_split distinct, moveLastOver_final]

theorem removeRow_absent {rows : List ρ} {row : ρ} (absent : row ∉ rows) : removeRow rows row = rows := by
  apply removeUnordered_absent
  intro other member
  apply decide_eq_false
  intro same
  subst same
  exact absent member

theorem removeRow_perm (rows : List ρ) (row : ρ) :
    (removeRow rows row).Perm (rows.filter fun other => !decide (other = row)) :=
  removeUnordered_perm _ rows

theorem mem_removeRow {rows : List ρ} {row other : ρ} :
    other ∈ removeRow rows row ↔ other ∈ rows ∧ other ≠ row := by
  rw [removeRow, mem_removeUnordered, decide_eq_false_iff_not]

theorem removeRow_nodup {rows : List ρ} (distinct : rows.Nodup) (row : ρ) : (removeRow rows row).Nodup :=
  (removeRow_perm rows row).nodup_iff.mpr (distinct.filter _)

theorem removeRow_length {rows : List ρ} {row : ρ} (distinct : rows.Nodup) (member : row ∈ rows) :
    (removeRow rows row).length + 1 = rows.length := by
  obtain ⟨front, back, rfl⟩ := List.append_of_mem member
  rcases List.eq_nil_or_concat back with rfl | ⟨back, last, rfl⟩
  · rw [removeRow_final distinct]
    simp
  · rw [List.concat_eq_append] at distinct ⊢
    rw [removeRow_moved distinct]
    simp only [List.length_append, List.length_cons, List.length_nil]
    omega

theorem removeRow_append {kept rows : List ρ} {row : ρ} (distinct : (kept ++ rows).Nodup)
    (different : row ∉ kept) : removeRow (kept ++ rows) row = kept ++ removeRow rows row := by
  by_cases member : row ∈ rows
  · obtain ⟨front, back, rfl⟩ := List.append_of_mem member
    have inner := distinct.of_append_right
    rcases List.eq_nil_or_concat back with rfl | ⟨back, last, rfl⟩
    · rw [← List.append_assoc] at distinct ⊢
      rw [removeRow_final distinct, removeRow_final inner]
    · rw [List.concat_eq_append, ← List.append_assoc] at distinct ⊢
      rw [List.concat_eq_append] at inner
      rw [removeRow_moved distinct, removeRow_moved inner, List.append_assoc]
  · have absent : row ∉ kept ++ rows := by simp [different, member]
    rw [removeRow_absent absent, removeRow_absent member]

/-- A row other than the removed one and other than the last one stays where it is. -/
theorem removeRow_getElem? {rows : List ρ} {row other : ρ} {i : Nat} (distinct : rows.Nodup)
    (member : row ∈ rows) (here : rows[i]? = some other) (different : other ≠ row)
    (early : i + 1 < rows.length) : (removeRow rows row)[i]? = some other := by
  obtain ⟨front, back, rfl⟩ := List.append_of_mem member
  have elsewhere : front.length ≠ i := by
    intro same
    subst same
    rw [List.getElem?_append_right (Nat.le_refl _), Nat.sub_self, List.getElem?_cons_zero] at here
    exact different (Option.some.inj here).symm
  rw [removeRow_split distinct, moveLastOver]
  split
  · rename_i none
    simp at none
  · rename_i last final
    have bound : i < ((front ++ row :: back).set front.length last).length - 1 := by
      rw [List.length_set]
      omega
    rw [List.getElem?_dropLast, if_pos bound, List.getElem?_set_ne elsewhere, here]

theorem removeEach_cons (rows : List ρ) (row : ρ) (removed : List ρ) :
    removeEach rows (row :: removed) = removeEach (removeRow rows row) removed := rfl

theorem removeEach_append (rows first second : List ρ) :
    removeEach rows (first ++ second) = removeEach (removeEach rows first) second :=
  List.foldl_append

theorem removeEach_nodup {rows : List ρ} (distinct : rows.Nodup) (removed : List ρ) :
    (removeEach rows removed).Nodup := by
  induction removed generalizing rows with
  | nil => exact distinct
  | cons row removed ih => exact ih (removeRow_nodup distinct row)

theorem mem_removeEach {rows removed : List ρ} {row : ρ} :
    row ∈ removeEach rows removed ↔ row ∈ rows ∧ row ∉ removed := by
  induction removed generalizing rows with
  | nil => simp [removeEach]
  | cons other removed ih =>
    rw [removeEach_cons, ih, mem_removeRow, List.mem_cons, not_or, and_assoc]

theorem removeEach_kept {kept rows removed : List ρ} (distinct : (kept ++ rows).Nodup)
    (apart : ∀ row ∈ removed, row ∉ kept) :
    removeEach (kept ++ rows) removed = kept ++ removeEach rows removed := by
  induction removed generalizing rows with
  | nil => rfl
  | cons row removed ih =>
    have head := apart row List.mem_cons_self
    have shrunk := removeRow_append distinct head
    have still : (kept ++ removeRow rows row).Nodup := shrunk ▸ removeRow_nodup distinct row
    rw [removeEach_cons, shrunk]
    exact ih still fun other member => apart other (List.mem_cons_of_mem _ member)

theorem removeEach_getElem? {rows removed : List ρ} {other : ρ} {i : Nat} (distinct : rows.Nodup)
    (stored : ∀ row ∈ removed, row ∈ rows) (once : removed.Nodup) (here : rows[i]? = some other)
    (kept : other ∉ removed) (early : i + removed.length < rows.length) :
    (removeEach rows removed)[i]? = some other := by
  induction removed generalizing rows with
  | nil => exact here
  | cons row removed ih =>
    rw [List.nodup_cons] at once
    rw [List.mem_cons, not_or] at kept
    rw [List.length_cons] at early
    have member := stored row List.mem_cons_self
    have length := removeRow_length distinct member
    apply ih (removeRow_nodup distinct row)
    · intro later inside
      apply mem_removeRow.mpr
      apply And.intro (stored later (List.mem_cons_of_mem _ inside))
      intro same
      subst same
      exact once.1 inside
    · exact once.2
    · exact removeRow_getElem? distinct member here kept.1 (by omega)
    · exact kept.2
    · omega

/-- A removed front takes in as many last rows, the very last one first. -/
theorem removeEach_front {front middle back : List ρ} (same : front.length = back.length)
    (distinct : (front ++ (middle ++ back)).Nodup) :
    removeEach (front ++ (middle ++ back)) front = back.reverse ++ middle := by
  induction front generalizing back with
  | nil =>
    have none : back = [] := List.length_eq_zero_iff.mp same.symm
    subst none
    simp [removeEach]
  | cons row front ih =>
    rcases List.eq_nil_or_concat back with rfl | ⟨back, last, rfl⟩
    · cases same
    · rw [List.concat_eq_append] at same distinct ⊢
      have shape : (row :: front) ++ (middle ++ (back ++ [last])) =
          [] ++ row :: ((front ++ (middle ++ back)) ++ [last]) := by simp
      rw [shape] at distinct ⊢
      have moved := removeRow_moved distinct
      have after : ([last] ++ (front ++ (middle ++ back))).Nodup := by
        have still := removeRow_nodup distinct row
        rw [moved] at still
        exact still
      have inner : (front ++ (middle ++ back)).Nodup := after.of_append_right
      have apart : ∀ other ∈ front, other ∉ [last] := by
        intro other member inside
        exact (List.nodup_append.mp after).2.2 other inside other (List.mem_append_left _ member) rfl
      have shorter : front.length = back.length := by simpa using same
      rw [removeEach_cons, moved]
      show removeEach ([last] ++ (front ++ (middle ++ back))) front = _
      rw [removeEach_kept after apart, ih shorter inner]
      simp

/-- Rows that stand in reverse order are filled from the end, so that the rows behind them come to
    stand before the others in their own order. -/
theorem removeEach_reversed {back between kept : List ρ} (same : kept.length = back.length)
    (distinct : (back.reverse ++ (between ++ kept)).Nodup) :
    removeEach (back.reverse ++ (between ++ kept)) back = kept ++ between := by
  induction back generalizing between kept with
  | nil =>
    have none : kept = [] := List.length_eq_zero_iff.mp same
    subst none
    simp [removeEach]
  | cons row back ih =>
    rcases List.eq_nil_or_concat kept with rfl | ⟨kept, last, rfl⟩
    · cases same
    · rw [List.concat_eq_append] at same distinct ⊢
      have shape : (row :: back).reverse ++ (between ++ (kept ++ [last])) =
          back.reverse ++ row :: ((between ++ kept) ++ [last]) := by simp
      rw [shape] at distinct ⊢
      have moved := removeRow_moved distinct
      have after : (back.reverse ++ ((last :: between) ++ kept)).Nodup := by
        have still := removeRow_nodup distinct row
        rw [moved] at still
        exact still
      have shorter : kept.length = back.length := by simpa using same
      rw [removeEach_cons, moved]
      have rest := ih shorter after
      rw [List.cons_append] at rest
      rw [rest]
      simp

section Order

variable {gone : ρ → Bool} {rows front middle last back : List ρ}

theorem removeEach_filter_perm (distinct : rows.Nodup) (gone : ρ → Bool) :
    (removeEach rows (rows.filter gone)).Perm (rows.filter fun row => !gone row) := by
  apply (List.perm_ext_iff_of_nodup (removeEach_nodup distinct _) (distinct.filter _)).mpr
  intro row
  rw [mem_removeEach, List.mem_filter, List.mem_filter, Bool.not_eq_true', not_and, Bool.not_eq_true]
  exact and_congr_right fun member => ⟨fun apart => apart member, fun kept _ => kept⟩

/-- With as many rows removed in front as stay or go at the end, the removals in the middle decide. -/
theorem removeEach_ends (distinct : (front ++ (middle ++ (last ++ back))).Nodup)
    (frontGone : ∀ row ∈ front, gone row = true) (lastKept : ∀ row ∈ last, gone row = false)
    (backGone : ∀ row ∈ back, gone row = true) (few : last.length ≤ 1)
    (inner : back.length = (middle.filter fun row => !gone row).length)
    (outer : front.length = (last ++ back).length) :
    removeEach (front ++ (middle ++ (last ++ back)))
        ((front ++ (middle ++ (last ++ back))).filter gone) =
      removeEach middle (middle.filter gone) ++ last := by
  have removed : (front ++ (middle ++ (last ++ back))).filter gone =
      front ++ (middle.filter gone ++ back) := by
    have all := List.filter_eq_self.mpr frontGone
    have none : last.filter gone = [] := by simpa using lastKept
    have ends := List.filter_eq_self.mpr backGone
    rw [List.filter_append, List.filter_append, List.filter_append, all, none, ends, List.nil_append]
  have turned : (last ++ back).reverse ++ middle = (back.reverse ++ last) ++ middle := by
    have single : last.reverse = last := perm_eq_of_few (List.reverse_perm last) few
    rw [List.reverse_append, single]
  have first : removeEach (front ++ (middle ++ (last ++ back))) front = (back.reverse ++ last) ++ middle :=
    (removeEach_front outer distinct).trans turned
  have afterFirst : ((back.reverse ++ last) ++ middle).Nodup := first ▸ removeEach_nodup distinct front
  have second : removeEach ((back.reverse ++ last) ++ middle) (middle.filter gone) =
      (back.reverse ++ last) ++ removeEach middle (middle.filter gone) := by
    apply removeEach_kept afterFirst
    intro row member inside
    exact (List.nodup_append.mp afterFirst).2.2 row inside row (List.mem_filter.mp member).1 rfl
  have afterSecond : (back.reverse ++ (last ++ removeEach middle (middle.filter gone))).Nodup := by
    have still := removeEach_nodup afterFirst (middle.filter gone)
    rw [second, List.append_assoc] at still
    exact still
  have left : (removeEach middle (middle.filter gone)).length = back.length := by
    have perm := removeEach_filter_perm afterFirst.of_append_right gone
    rw [perm.length_eq, inner]
  rw [removed, removeEach_append, first, removeEach_append, second, List.append_assoc]
  exact removeEach_reversed left afterSecond

theorem removeEach_kept_head {row : ρ} (distinct : (row :: rows).Nodup) (kept : gone row = false) :
    removeEach (row :: rows) ((row :: rows).filter gone) = row :: removeEach rows (rows.filter gone) := by
  have unlisted : gone row ≠ true := by simp [kept]
  have apart : ∀ other ∈ rows.filter gone, other ∉ [row] := by
    intro other member same
    rw [List.mem_singleton] at same
    subst same
    exact unlisted (List.mem_filter.mp member).2
  rw [List.filter_cons_of_neg unlisted]
  exact removeEach_kept distinct apart

theorem removeEach_of_inPlace {marks : List Bool} (inPlace : InPlace marks) (distinct : rows.Nodup)
    (marked : rows.map gone = marks) :
    removeEach rows (rows.filter gone) = rows.filter fun row => !gone row := by
  induction inPlace generalizing rows with
  | kept _ ih =>
    obtain ⟨row, rest, rfl, kept, others⟩ := List.map_eq_cons_iff.mp marked
    have stays : (row :: rest).filter (fun row => !gone row) = row :: rest.filter fun row => !gone row := by
      simp [kept]
    rw [removeEach_kept_head distinct kept, stays]
    exact congrArg (List.cons row) (ih distinct.of_cons others)
  | few alone =>
    rw [← marked, count_kept] at alone
    exact perm_eq_of_few (removeEach_filter_perm distinct gone) alone
  | ends _ last few ih =>
    obtain ⟨front, rest, rfl, atFront, rest_eq⟩ := List.map_eq_append_iff.mp marked
    obtain ⟨middle, tail, rfl, atMiddle, tail_eq⟩ := List.map_eq_append_iff.mp rest_eq
    obtain ⟨stays, back, rfl, atLast, atBack⟩ := List.map_eq_append_iff.mp tail_eq
    have front_marks := map_eq_replicate atFront
    have last_marks := map_eq_replicate atLast
    have back_marks := map_eq_replicate atBack
    rw [← atMiddle, count_kept] at front_marks back_marks
    have outer : front.length = (stays ++ back).length := by
      rw [List.length_append, front_marks.1, last_marks.1, back_marks.1]
    have inner := ih distinct.of_append_right.of_append_left atMiddle
    rw [removeEach_ends distinct front_marks.2 last_marks.2 back_marks.2 (last_marks.1 ▸ few) back_marks.1
      outer, inner, filter_kept_ends front_marks.2 last_marks.2 back_marks.2]

theorem kept_index {removed kept : List ρ} {row : ρ} {i j : Nat} (distinct : rows.Nodup)
    (stored : ∀ other ∈ removed, other ∈ rows) (once : removed.Nodup) (stays : row ∉ removed)
    (same : removeEach rows removed = kept) (here : rows[i]? = some row) (there : kept[j]? = some row)
    (early : i + removed.length < rows.length) : i = j := by
  have final := removeEach_getElem? distinct stored once here stays early
  have result := removeEach_nodup distinct removed
  rw [same] at final result
  obtain ⟨bound, _⟩ := List.getElem?_eq_some_iff.mp final
  exact (List.getElem?_inj bound result).mp (final.trans there.symm)

theorem removed_front {row : ρ} (distinct : (front ++ row :: back).Nodup)
    (same : removeEach (front ++ row :: back) ((front ++ row :: back).filter gone) =
      (front ++ row :: back).filter fun row => !gone row)
    (frontGone : ∀ row ∈ front, gone row = true) (some : front ≠ []) (kept : gone row = false) :
    ((front ++ row :: back).filter fun row => !gone row).length ≤ front.length := by
  by_contra few
  have total := gone_add_kept gone (front ++ row :: back)
  have first : ((front ++ row :: back).filter fun row => !gone row)[0]? = .some row := by
    simp [List.filter_append, filter_kept_of_gone frontGone, kept]
  have stays : row ∉ (front ++ row :: back).filter gone := by simp [kept]
  have index := kept_index (i := front.length) distinct (fun other inside => (List.mem_filter.mp inside).1)
    (distinct.filter _) stays same (by simp) first (by omega)
  exact some (List.length_eq_zero_iff.mp index)

/-- Of the last rows, which have come to the front in reverse order, only the first one can stay. -/
theorem removed_back (distinct : (back.reverse ++ middle).Nodup)
    (same : removeEach (back.reverse ++ middle) (middle.filter gone ++ back.filter gone) =
      (middle.filter fun row => !gone row) ++ back.filter fun row => !gone row)
    (length : ((middle.filter fun row => !gone row) ++ back.filter fun row => !gone row).length = back.length) :
    ∃ last rest, back = last ++ rest ∧ (∀ row ∈ last, gone row = false) ∧
      (∀ row ∈ rest, gone row = true) ∧ last.length ≤ 1 := by
  rcases first_kept gone back.reverse with all | ⟨turned, row, before, split, turnedGone, kept⟩
  · refine ⟨[], back, rfl, by simp, ?_, by simp⟩
    intro row member
    exact all row (List.mem_reverse.mpr member)
  · have shape : back = before.reverse ++ row :: turned.reverse := by
      rw [← List.reverse_reverse back, split]
      simp
    have total := gone_add_kept gone (middle ++ back)
    rw [List.filter_append, List.filter_append, length] at total
    have kept_back : (back.filter fun row => !gone row) =
        (before.reverse.filter fun row => !gone row) ++ [row] := by
      have none : (turned.reverse.filter fun row => !gone row) = [] := by
        apply filter_kept_of_gone
        intro other member
        exact turnedGone other (List.mem_reverse.mp member)
      rw [shape, List.filter_append]
      simp [kept, none]
    have there : ((middle.filter fun row => !gone row) ++ back.filter fun row => !gone row)[back.length - 1]? =
        some row := by
      rw [← length, kept_back, ← List.append_assoc, List.length_append, List.length_singleton,
        Nat.add_sub_cancel, List.getElem?_concat_length]
    have here : (back.reverse ++ middle)[turned.length]? = some row := by
      rw [split]
      simp
    have stays : row ∉ middle.filter gone ++ back.filter gone := by simp [kept]
    have sizes : back.length = before.length + 1 + turned.length := by
      rw [shape]
      simp only [List.length_append, List.length_reverse, List.length_cons]
      omega
    have removed := turned_removed distinct gone
    have index := kept_index distinct removed.2 removed.1 stays same here there
      (by simp only [List.length_append, List.length_reverse] at total ⊢; omega)
    have none : before = [] := by
      apply List.length_eq_zero_iff.mp
      omega
    refine ⟨[row], turned.reverse, by rw [shape, none]; rfl, ?_, ?_, by simp⟩
    · intro other member
      rw [List.mem_singleton.mp member]
      exact kept
    · intro other member
      exact turnedGone other (List.mem_reverse.mp member)

/-- When removals leave the order and more than one row stays behind a removed head, rows are removed
    at both ends as `InPlace` says. -/
theorem removed_ends {row : ρ} (distinct : (row :: rows).Nodup)
    (same : removeEach (row :: rows) ((row :: rows).filter gone) = (row :: rows).filter fun row => !gone row)
    (removed : gone row = true) (several : 1 < ((row :: rows).filter fun row => !gone row).length) :
    ∃ front middle last back, row :: rows = front ++ (middle ++ (last ++ back)) ∧
      (∀ row ∈ front, gone row = true) ∧ (∀ row ∈ last, gone row = false) ∧
      (∀ row ∈ back, gone row = true) ∧ last.length ≤ 1 ∧
      back.length = (middle.filter fun row => !gone row).length ∧
      front.length = (last ++ back).length ∧ front ≠ [] := by
  rcases first_kept gone (row :: rows) with all | ⟨start, first, rest, split, startGone, kept⟩
  · rw [filter_kept_of_gone all] at several
    cases several
  have some : start ≠ [] := by
    intro none
    subst none
    cases split
    rw [removed] at kept
    cases kept
  rw [split] at distinct same several ⊢
  have long := removed_front distinct same startGone some kept
  obtain ⟨front, middle, tail, shape, frontLength, atEnd, frontGone⟩ := split_ends startGone rfl long
  have tailLength : tail.length = front.length := atEnd.trans frontLength.symm
  rw [shape] at distinct same several frontLength ⊢
  have all := List.filter_eq_self.mpr frontGone
  have turned : (tail.reverse ++ middle).Nodup :=
    removeEach_front tailLength.symm distinct ▸ removeEach_nodup distinct front
  have stays : (front ++ (middle ++ tail)).filter (fun row => !gone row) =
      (middle.filter fun row => !gone row) ++ tail.filter fun row => !gone row := by
    rw [List.filter_append, filter_kept_of_gone frontGone, List.nil_append, List.filter_append]
  rw [stays] at same several frontLength
  rw [List.filter_append, List.filter_append, all, removeEach_append,
    removeEach_front tailLength.symm distinct] at same
  obtain ⟨last, back, parts, lastKept, backGone, few⟩ :=
    removed_back turned same (frontLength.symm.trans tailLength.symm)
  subst parts
  refine ⟨front, middle, last, back, rfl, frontGone, lastKept, backGone, few, ?_, tailLength.symm, ?_⟩
  · rw [List.filter_append, filter_kept_of_kept lastKept, filter_kept_of_gone backGone, List.append_nil,
      List.length_append] at frontLength
    rw [List.length_append] at tailLength
    omega
  · intro none
    rw [← frontLength, none] at several
    cases several

theorem inPlace_of_removeEach (distinct : rows.Nodup)
    (same : removeEach rows (rows.filter gone) = rows.filter fun row => !gone row) :
    InPlace (rows.map gone) := by
  induction size : rows.length using Nat.strongRecOn generalizing rows with
  | _ n ih =>
    cases rows with
    | nil => exact .few (Nat.zero_le _)
    | cons row rest =>
      cases removed : gone row with
      | false =>
        have stays : (row :: rest).filter (fun row => !gone row) = row :: rest.filter fun row => !gone row := by
          simp [removed]
        rw [removeEach_kept_head distinct removed, stays] at same
        rw [List.map_cons, removed]
        have shorter : rest.length < n := by
          rw [← size]
          exact Nat.lt_succ_self _
        exact .kept (ih _ shorter distinct.of_cons (List.cons.inj same).2 rfl)
      | true =>
        by_cases few : ((row :: rest).filter fun row => !gone row).length ≤ 1
        · rw [← count_kept] at few
          exact .few few
        · obtain ⟨front, middle, last, back, shape, frontGone, lastKept, backGone, atMostOne, inner, outer,
            some⟩ := removed_ends distinct same removed (Nat.lt_of_not_le few)
          rw [shape] at distinct same size ⊢
          rw [removeEach_ends distinct frontGone lastKept backGone atMostOne inner outer,
            filter_kept_ends frontGone lastKept backGone] at same
          have shorter : middle.length < n := by
            have nonempty := List.length_pos_iff.mpr some
            simp only [List.length_append] at size
            omega
          have rest := ih _ shorter distinct.of_append_right.of_append_left
            (List.append_cancel_right same) rfl
          rw [List.map_append, List.map_append, List.map_append, replicate_of_forall frontGone,
            replicate_of_forall lastKept, replicate_of_forall backGone, outer, List.length_append, inner,
            ← count_kept]
          exact .ends rest last.length atMostOne

/-- Removals one after the other leave the other rows in their order exactly when the removed rows
    are placed as `InPlace` says. -/
theorem removeEach_order_iff (distinct : rows.Nodup) (gone : ρ → Bool) :
    (removeEach rows (rows.filter gone) = rows.filter fun row => !gone row) ↔ InPlace (rows.map gone) :=
  ⟨inPlace_of_removeEach distinct, fun inPlace => removeEach_of_inPlace inPlace distinct rfl⟩

end Order

theorem Table.remove_rows {κ : Type*} {key : ρ → κ} {table : Table key} {row : ρ} {p : ρ → Bool}
    (selects : ∀ other ∈ table.rows, p other = true ↔ other = row) :
    (table.remove p).rows = removeRow table.rows row := by
  apply removeUnordered_congr
  intro other member
  rw [Bool.eq_iff_iff, selects other member, decide_eq_true_iff]

end Rows

end Keyed
