import Mathlib.Data.List.Defs
import Mathlib.Data.List.DropRight

/-!
# Lists in chunks

A list is cut into chunks from its front. So chunks of full length, put together and followed by a
shorter rest, are found again.
-/

namespace Backpressure

variable {α : Type} {size : Nat}

/-- As long as there is room in a chunk, items join it. -/
theorem toChunks_go_append {items rest : List α} {chunk : Array α} {chunks : Array (List α)}
    (h : chunk.size + items.length ≤ size) :
    List.toChunks.go size (items ++ rest) chunk chunks =
      List.toChunks.go size rest (chunk ++ items) chunks := by
  induction items generalizing chunk with
  | nil => simp
  | cons item items ih =>
    rw [List.length_cons] at h
    have hroom : (chunk.size == size) = false := by
      rw [beq_eq_false_iff_ne]
      omega
    have hlater := @ih (chunk.push item) (by rw [Array.size_push]; omega)
    rw [List.cons_append, List.toChunks.go, hroom]
    simpa using hlater

/-- The chunks that are complete stay as they are. -/
theorem toChunks_go_chunks (items : List α) (chunk : Array α) (chunks : Array (List α)) :
    List.toChunks.go size items chunk chunks =
      chunks.toList ++ List.toChunks.go size items chunk #[] := by
  induction items generalizing chunk chunks with
  | nil => simp [List.toChunks.go]
  | cons item items ih =>
    simp only [List.toChunks.go]
    split
    · rw [ih _ (chunks.push _), ih _ (#[].push _)]
      simp
    · exact ih _ _

theorem toChunks_cons {item : α} {items : List α} (hsize : 0 < size) :
    (item :: items).toChunks size = List.toChunks.go size items #[item] #[] := by
  cases size with
  | zero => contradiction
  | succ n => rfl

/-- A list that fits into one chunk is one chunk. -/
theorem toChunks_of_length_le {items : List α} (hsome : items ≠ [])
    (hfits : items.length ≤ size) : items.toChunks size = [items] := by
  cases items with
  | nil => contradiction
  | cons item items =>
    rw [List.length_cons] at hfits
    rw [toChunks_cons (by omega), ← List.append_nil items, toChunks_go_append (by simp; omega)]
    simp [List.toChunks.go]

/-- A full chunk comes off the front. -/
theorem toChunks_append {chunk rest : List α} (hsize : 0 < size) (hfull : chunk.length = size) :
    (chunk ++ rest).toChunks size = chunk :: rest.toChunks size := by
  cases chunk with
  | nil =>
    rw [List.length_nil] at hfull
    omega
  | cons item items =>
    cases rest with
    | nil =>
      rw [List.append_nil, toChunks_of_length_le (List.cons_ne_nil _ _) (Nat.le_of_eq hfull)]
      rfl
    | cons next rest =>
      rw [List.length_cons] at hfull
      have hover : ((#[item] ++ items).size == size) = true := by
        simp
        omega
      rw [List.cons_append, toChunks_cons hsize, toChunks_go_append (by simp; omega),
        List.toChunks.go, if_pos hover, toChunks_go_chunks, toChunks_cons hsize]
      simp

/-- Full chunks come off the front, one after the other. -/
theorem toChunks_flatten_append {chunks : List (List α)} {rest : List α} (hsize : 0 < size)
    (hfull : ∀ chunk ∈ chunks, chunk.length = size) :
    (chunks.flatten ++ rest).toChunks size = chunks ++ rest.toChunks size := by
  induction chunks with
  | nil => rfl
  | cons chunk chunks ih =>
    rw [List.forall_mem_cons] at hfull
    rw [List.flatten_cons, List.append_assoc, toChunks_append hsize hfull.1, ih hfull.2]
    rfl

/-- Full chunks have as many items as there are chunks, times the size. -/
theorem length_flatten_of_full {chunks : List (List α)}
    (hfull : ∀ chunk ∈ chunks, chunk.length = size) :
    chunks.flatten.length = size * chunks.length := by
  induction chunks with
  | nil => rfl
  | cons chunk chunks ih =>
    rw [List.forall_mem_cons] at hfull
    rw [List.flatten_cons, List.length_append, hfull.1, ih hfull.2, List.length_cons,
      Nat.mul_succ, Nat.add_comm]

/-- Where a list ends with a chunk, what follows is cut into chunks of its own. -/
theorem toChunks_append_of_dvd {items rest : List α} (hsize : 0 < size)
    (hdvd : size ∣ items.length) :
    (items ++ rest).toChunks size = items.toChunks size ++ rest.toChunks size := by
  obtain ⟨count, hcount⟩ := hdvd
  induction count generalizing items with
  | zero =>
    rw [Nat.mul_zero, List.length_eq_zero_iff] at hcount
    rw [hcount]
    rfl
  | succ n ih =>
    have hchunk : (items.take size).length = size := by
      rw [List.length_take, hcount, Nat.mul_succ]
      omega
    have hlater : (items.drop size).length = size * n := by
      rw [List.length_drop, hcount, Nat.mul_succ]
      omega
    rw [← List.take_append_drop size items, List.append_assoc, toChunks_append hsize hchunk,
      toChunks_append hsize hchunk, ih hlater]
    rfl

/-! ### What does not fill a chunk -/

/-- The items at the end of a list that do not fill a chunk. -/
def shortRest (size : Nat) (items : List α) : List α := items.rtake (items.length % size)

/-- The full chunks of a list. -/
def fullChunks (size : Nat) (items : List α) : List (List α) :=
  (items.rdrop (items.length % size)).toChunks size

@[simp]
theorem shortRest_nil : shortRest size ([] : List α) = [] := rfl

@[simp]
theorem fullChunks_nil : fullChunks size ([] : List α) = [] := by
  simp [fullChunks, List.toChunks]

theorem length_shortRest (items : List α) :
    (shortRest size items).length = items.length % size := by
  have hle := Nat.mod_le items.length size
  rw [shortRest, List.rtake, List.length_drop]
  omega

/-- The items before a short rest end with a chunk. -/
theorem dvd_length_rdrop (items : List α) :
    size ∣ (items.rdrop (items.length % size)).length := by
  have hle := Nat.mod_le items.length size
  rw [List.rdrop, List.length_take, Nat.min_eq_left (Nat.sub_le _ _)]
  exact Nat.dvd_sub_mod items.length

theorem rdrop_append_shortRest (items : List α) :
    items.rdrop (items.length % size) ++ shortRest size items = items :=
  List.take_append_drop _ items

/-- A list without a short rest is cut into full chunks. -/
theorem toChunks_of_mod_eq_zero {items : List α} (h : items.length % size = 0) :
    items.toChunks size = fullChunks size items := by
  rw [fullChunks, h, List.rdrop_zero]

/-- A short rest is the last chunk. -/
theorem toChunks_of_mod_ne_zero {items : List α} (hsize : 0 < size)
    (h : items.length % size ≠ 0) :
    items.toChunks size = fullChunks size items ++ [shortRest size items] := by
  have hsome : shortRest size items ≠ [] := by
    rw [ne_eq, ← List.length_eq_zero_iff, length_shortRest]
    exact h
  have hfits : (shortRest size items).length ≤ size := by
    rw [length_shortRest]
    exact Nat.le_of_lt (Nat.mod_lt _ hsize)
  rw [fullChunks, ← toChunks_of_length_le hsome hfits,
    ← toChunks_append_of_dvd hsize (dvd_length_rdrop items), rdrop_append_shortRest]

section Concat

variable {items : List α} {item : α}

/-- An item that completes a chunk finds all others of the chunk in the short rest. -/
theorem mod_add_one_of_full (hsize : 0 < size) (hfull : (items.length + 1) % size = 0) :
    items.length % size + 1 = size := by
  have hlt := Nat.mod_lt items.length hsize
  rw [← Nat.mod_add_mod] at hfull
  by_contra hne
  rw [Nat.mod_eq_of_lt (by omega)] at hfull
  contradiction

theorem mod_add_one_of_short (hshort : (items.length + 1) % size ≠ 0) :
    (items.length + 1) % size = items.length % size + 1 := by
  rcases Nat.eq_zero_or_pos size with rfl | hsize
  · simp
  have hlt := Nat.mod_lt items.length hsize
  rw [← Nat.mod_add_mod] at hshort ⊢
  refine Nat.mod_eq_of_lt (Nat.lt_of_le_of_ne hlt ?_)
  intro hfull
  rw [hfull, Nat.mod_self] at hshort
  contradiction

/-- An item that completes no chunk joins the short rest. -/
theorem shortRest_concat_of_short (hshort : (items.length + 1) % size ≠ 0) :
    shortRest size (items ++ [item]) = shortRest size items ++ [item] := by
  rw [shortRest, List.length_append, List.length_singleton, mod_add_one_of_short hshort,
    List.rtake_concat_succ]
  rfl

theorem fullChunks_concat_of_short (hshort : (items.length + 1) % size ≠ 0) :
    fullChunks size (items ++ [item]) = fullChunks size items := by
  rw [fullChunks, List.length_append, List.length_singleton, mod_add_one_of_short hshort,
    List.rdrop_concat_succ]
  rfl

/-- An item that completes a chunk leaves no short rest. -/
theorem shortRest_concat_of_full (hfull : (items.length + 1) % size = 0) :
    shortRest size (items ++ [item]) = [] := by
  rw [shortRest, List.length_append, List.length_singleton, hfull, List.rtake_zero]

/-- The chunk that an item completes is the short rest and the item. -/
theorem rtake_concat_of_full (hsize : 0 < size) (hfull : (items.length + 1) % size = 0) :
    (items ++ [item]).rtake size = shortRest size items ++ [item] := by
  have hmod := mod_add_one_of_full hsize hfull
  rw [shortRest, ← List.rtake_concat_succ, hmod]

theorem fullChunks_concat_of_full (hsize : 0 < size) (hfull : (items.length + 1) % size = 0) :
    fullChunks size (items ++ [item]) =
      fullChunks size items ++ [(items ++ [item]).rtake size] := by
  have hlength : (shortRest size items ++ [item]).length = size := by
    rw [List.length_append, length_shortRest, List.length_singleton,
      mod_add_one_of_full hsize hfull]
  have hchunk : (shortRest size items ++ [item]).toChunks size = [shortRest size items ++ [item]] :=
    toChunks_of_length_le (by simp) (Nat.le_of_eq hlength)
  rw [fullChunks, List.length_append, List.length_singleton, hfull, List.rdrop_zero,
    rtake_concat_of_full hsize hfull, fullChunks, ← hchunk,
    ← toChunks_append_of_dvd hsize (dvd_length_rdrop items), ← List.append_assoc,
    rdrop_append_shortRest]

end Concat

/-! ### Lists cut at some of their items -/

/-- A last item that cuts nothing joins the last part. -/
theorem splitOnP_concat {p : α → Bool} {list : List α} {parts : List (List α)}
    {last : List α} {item : α} (hitem : p item = false)
    (h : list.splitOnP p = parts ++ [last]) :
    (list ++ [item]).splitOnP p = parts ++ [last ++ [item]] := by
  induction list generalizing parts last with
  | nil =>
    change [] ++ [[]] = parts ++ [last] at h
    obtain ⟨rfl, hlast⟩ := List.append_inj' h rfl
    cases hlast
    rw [List.nil_append, List.splitOnP_eq_singleton (by simpa using hitem)]
    rfl
  | cons first rest ih =>
    have hrest := (List.dropLast_concat_getLast (List.splitOnP_ne_nil p rest)).symm
    rw [List.splitOnP_cons_eq_if_modifyHead] at h
    rw [List.cons_append, List.splitOnP_cons_eq_if_modifyHead, ih hrest]
    rw [hrest] at h
    split
    · rename_i hfirst
      rw [if_pos hfirst, ← List.cons_append] at h
      obtain ⟨rfl, hlast⟩ := List.append_inj' h rfl
      cases hlast
      rfl
    · rename_i hfirst
      rw [if_neg hfirst] at h
      cases hparts : (rest.splitOnP p).dropLast with
      | nil =>
        rw [hparts] at h
        change [] ++ [_] = parts ++ [last] at h
        obtain ⟨rfl, hlast⟩ := List.append_inj' h rfl
        cases hlast
        rfl
      | cons part parts' =>
        rw [hparts] at h
        change ((first :: part) :: parts') ++ [_] = parts ++ [last] at h
        obtain ⟨rfl, hlast⟩ := List.append_inj' h rfl
        cases hlast
        rfl

end Backpressure
