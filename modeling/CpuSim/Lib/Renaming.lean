/-
  CpuSim.Lib.Renaming

  Register renaming in general.  Elements of a sequence may give a register a new
  name; `mapping m xs` is the map from registers to names after `xs`.  If every
  element also records the name it replaces, the names in the map together with
  the replaced ones are the names of the initial map together with the new ones,
  as multisets (`image_mapping_add_olds`); when the latter are all different, no
  name is ever live twice.
-/

import Mathlib.Data.Fintype.Basic
import Mathlib.Data.Multiset.Fintype
import Mathlib.Tactic.Abel
import CpuSim.Lib.Chain

namespace CpuSim.Lib.Renaming

variable {R P α β : Type _}

/-! ## Names -/

/-- The names a sequence introduces. -/
def names (dst : α → Option (R × P)) (xs : List α) : List P :=
  xs.filterMap fun x => (dst x).map Prod.snd

/-- The names a sequence replaces, as its elements record them. -/
def olds (dst : α → Option (R × P)) (old : α → P) (xs : List α) : List P :=
  xs.filterMap fun x => (dst x).map fun _ => old x

section Names

variable {dst : α → Option (R × P)} {xs ys : List α} {x : α} {r : R} {p : P}

@[simp] theorem names_nil : names dst [] = [] := rfl

theorem names_append : names dst (xs ++ ys) = names dst xs ++ names dst ys :=
  List.filterMap_append

theorem names_cons_none (h : dst x = none) : names dst (x :: xs) = names dst xs := by
  simp [names, h]

theorem names_cons_some (h : dst x = some (r, p)) : names dst (x :: xs) = p :: names dst xs := by
  simp [names, h]

theorem names_singleton {dst' : β → Option (R × P)} {y : β} (h : dst' y = dst x) :
    names dst' [y] = names dst [x] := by
  rw [names, names, List.filterMap_cons, List.filterMap_cons, h]
  rfl

theorem names_map {dst' : β → Option (R × P)} {f : α → β}
    (h : ∀ x ∈ xs, dst' (f x) = dst x) : names dst' (xs.map f) = names dst xs := by
  rw [names, List.filterMap_map, names]
  exact List.filterMap_congr fun x hx => by rw [Function.comp, h x hx]

theorem names_eq (dst : α → Option (R × P)) (xs : List α) :
    names dst xs = (xs.map dst).filterMap fun d => d.map Prod.snd := by
  rw [List.filterMap_map]
  rfl

/-- The names depend on the destinations only. -/
theorem names_of_map_eq {dst' : β → Option (R × P)} {zs : List β}
    (h : zs.map dst' = xs.map dst) : names dst' zs = names dst xs := by
  rw [names_eq, names_eq, h]

theorem mem_names : p ∈ names dst xs ↔ ∃ x ∈ xs, ∃ r, dst x = some (r, p) := by
  simp only [names, List.mem_filterMap, Option.map_eq_some_iff]
  constructor
  · rintro ⟨x, hx, ⟨r, q⟩, hd, rfl⟩
    exact ⟨x, hx, r, hd⟩
  · rintro ⟨x, hx, r, hd⟩
    exact ⟨x, hx, (r, p), hd, rfl⟩

/-- When no name is given twice, a name belongs to one element. -/
theorem eq_of_nodup_names (hn : (names dst xs).Nodup) {y : α} {r' : R} (hx : x ∈ xs)
    (hy : y ∈ xs) (hdx : dst x = some (r, p)) (hdy : dst y = some (r', p)) : x = y := by
  induction xs with
  | nil => cases hx
  | cons z xs ih =>
      have hmem : ∀ {w : α} {r : R}, w ∈ xs → dst w = some (r, p) → p ∈ names dst xs :=
        fun hw hd => mem_names.mpr ⟨_, hw, _, hd⟩
      rcases List.mem_cons.mp hx with rfl | hx' <;> rcases List.mem_cons.mp hy with rfl | hy'
      · rfl
      · rw [names_cons_some hdx, List.nodup_cons] at hn
        exact absurd (hmem hy' hdy) hn.1
      · rw [names_cons_some hdy, List.nodup_cons] at hn
        exact absurd (hmem hx' hdx) hn.1
      · refine ih ?_ hx' hy'
        cases hz : dst z with
        | none => rwa [names_cons_none hz] at hn
        | some d =>
            rw [names_cons_some (r := d.1) (p := d.2) hz] at hn
            exact (List.nodup_cons.mp hn).2

end Names

section Image

variable [Fintype R]

/-- The names in a map, each as often as registers have it. -/
def image (m : R → P) : Multiset P := (Finset.univ : Finset R).val.map m

theorem mem_image (m : R → P) (r : R) : m r ∈ image m :=
  Multiset.mem_map_of_mem m (Finset.mem_univ r)

theorem injective_of_nodup_image {m : R → P} (hn : (image m).Nodup) : Function.Injective m := by
  intro a b hab
  exact Multiset.inj_on_of_nodup_map hn a (Finset.mem_univ a) b (Finset.mem_univ b) hab

theorem not_mem_of_nodup_image {m : R → P} {s : List P}
    (hn : (image m + (s : Multiset P)).Nodup) (r : R) : m r ∉ s := fun hmem =>
  Multiset.disjoint_left.mp (Multiset.nodup_add.mp hn).2.2 (mem_image m r)
    (Multiset.mem_coe.mpr hmem)

end Image

/-! ## The map -/

variable [DecidableEq R]

/-- The map after one more element. -/
def advance (dst : α → Option (R × P)) (m : R → P) (x : α) : R → P :=
  match dst x with
  | none => m
  | some (r, p) => Function.update m r p

/-- The map after a sequence. -/
def mapping (dst : α → Option (R × P)) (m : R → P) (xs : List α) : R → P :=
  xs.foldl (advance dst) m

/-- The most recent name a sequence gives to `r`. -/
def lastName (dst : α → Option (R × P)) (r : R) : List α → Option P
  | [] => none
  | x :: xs =>
    match lastName dst r xs with
    | some p => some p
    | none =>
      match dst x with
      | some (r', p) => if r' = r then some p else none
      | none => none

/-- Every element records the name it replaces. -/
def Records (dst : α → Option (R × P)) (old : α → P) (m : R → P) (xs : List α) : Prop :=
  Chain (advance dst) (fun m x => ∀ r p, dst x = some (r, p) → old x = m r) m xs

variable {dst : α → Option (R × P)} {old : α → P} {m : R → P} {xs ys : List α} {x : α}
  {r r' : R} {p : P}

theorem advance_none (h : dst x = none) : advance dst m x = m := by rw [advance, h]

theorem advance_some (h : dst x = some (r, p)) : advance dst m x = Function.update m r p := by
  rw [advance, h]

theorem advance_congr {dst' : β → Option (R × P)} {y : β} (h : dst' y = dst x) :
    advance dst' m y = advance dst m x := by rw [advance, advance, h]

@[simp] theorem mapping_nil : mapping dst m [] = m := rfl

@[simp] theorem mapping_cons : mapping dst m (x :: xs) = mapping dst (advance dst m x) xs := rfl

theorem mapping_append : mapping dst m (xs ++ ys) = mapping dst (mapping dst m xs) ys := by
  rw [mapping, List.foldl_append]
  rfl

theorem mapping_concat : mapping dst m (xs ++ [x]) = advance dst (mapping dst m xs) x := by
  rw [mapping_append]
  rfl

/-- Elements mapped without changing what they write give the same map. -/
theorem mapping_map {dst' : β → Option (R × P)} {f : α → β}
    (h : ∀ x ∈ xs, dst' (f x) = dst x) : mapping dst' m (xs.map f) = mapping dst m xs :=
  foldl_map_eq (fun d x hx => by rw [advance, advance, h x hx]) m

/-- A last name is the name some element gives that register. -/
theorem lastName_mem (h : lastName dst r xs = some p) : ∃ x ∈ xs, dst x = some (r, p) := by
  induction xs with
  | nil => cases h
  | cons x xs ih =>
      rw [lastName] at h
      split at h
      · rename_i q hq
        obtain ⟨y, hy, hd⟩ := ih (hq.trans h)
        exact ⟨y, List.mem_cons_of_mem _ hy, hd⟩
      · split at h
        · rename_i r' q hd
          split at h
          · rename_i hr
            refine ⟨x, List.mem_cons_self, ?_⟩
            rw [hd, hr, Option.some.inj h]
          · cases h
        · cases h

/-- The map gives each register its most recent name, or the initial one. -/
theorem mapping_eq_lastName : mapping dst m xs r = (lastName dst r xs).getD (m r) := by
  induction xs generalizing m with
  | nil => rfl
  | cons x xs ih =>
      rw [mapping_cons, ih, lastName]
      cases hl : lastName dst r xs with
      | some p => rfl
      | none =>
          cases hd : dst x with
          | none => rw [advance_none hd]
          | some rp =>
              obtain ⟨r', p⟩ := rp
              rw [advance_some hd]
              by_cases hr : r' = r
              · simp [hr]
              · simp [hr, Ne.symm hr]

theorem mapping_mem (dst : α → Option (R × P)) (m : R → P) (xs : List α) (r : R) :
    mapping dst m xs r = m r ∨ mapping dst m xs r ∈ names dst xs := by
  induction xs generalizing m with
  | nil => exact Or.inl rfl
  | cons x xs ih =>
      rw [mapping_cons]
      cases hd : dst x with
      | none =>
          rw [advance_none hd, names_cons_none hd]
          exact ih m
      | some rp =>
          obtain ⟨r', p⟩ := rp
          rw [advance_some hd, names_cons_some hd]
          rcases ih (Function.update m r' p) with h | h
          · by_cases hr : r = r'
            · right
              rw [h, hr, Function.update_self]
              exact List.mem_cons_self
            · left
              rw [h, Function.update_of_ne hr]
          · exact Or.inr (List.mem_cons_of_mem _ h)

/-! ## Recorded replacements -/

theorem Records.append_iff :
    Records dst old m (xs ++ ys) ↔
      Records dst old m xs ∧ Records dst old (mapping dst m xs) ys := Chain.append_iff

theorem Records.concat_iff :
    Records dst old m (xs ++ [x]) ↔
      Records dst old m xs ∧ ∀ r p, dst x = some (r, p) → old x = mapping dst m xs r :=
  Chain.concat_iff

theorem Records.map {dst' : β → Option (R × P)} {old' : β → P} {f : α → β}
    (h : Records dst old m xs) (hdst : ∀ x ∈ xs, dst' (f x) = dst x)
    (hold : ∀ x ∈ xs, old' (f x) = old x) : Records dst' old' m (xs.map f) := by
  refine Chain.map h (fun d x hx => by rw [advance, advance, hdst x hx]) fun d x hx hP r p hd => ?_
  rw [hold x hx]
  exact hP r p (by rw [← hdst x hx, hd])

/-! ## Conservation -/

section Conservation

variable [Fintype R]

/-- A new name for `r` takes the place of the old one. -/
theorem image_update (m : R → P) (r : R) (p : P) :
    image (Function.update m r p) + {m r} = image m + {p} := by
  have huniv : (Finset.univ : Finset R).val = r ::ₘ ((Finset.univ : Finset R).erase r).val := by
    rw [← Finset.insert_val_of_notMem (Finset.notMem_erase r _),
      Finset.insert_erase (Finset.mem_univ r)]
  have hrest : ((Finset.univ : Finset R).erase r).val.map (Function.update m r p) =
      ((Finset.univ : Finset R).erase r).val.map m := by
    refine Multiset.map_congr rfl fun x hx => ?_
    exact Function.update_of_ne (Finset.ne_of_mem_erase hx) p m
  rw [image, image, huniv, Multiset.map_cons, Multiset.map_cons, hrest, Function.update_self,
    ← Multiset.singleton_add, ← Multiset.singleton_add]
  abel

/-- Names in the map and replaced names: nothing is lost and nothing is new. -/
theorem image_mapping_add_olds (h : Records dst old m xs) :
    image (mapping dst m xs) + (olds dst old xs : Multiset P) =
      image m + (names dst xs : Multiset P) := by
  induction xs generalizing m with
  | nil => rfl
  | cons x xs ih =>
      obtain ⟨hx, hrest⟩ := h
      have := ih hrest
      cases hd : dst x with
      | none =>
          have ho : olds dst old (x :: xs) = olds dst old xs := by simp [olds, hd]
          rw [advance_none hd] at this
          rw [mapping_cons, advance_none hd, ho, names_cons_none hd, this]
      | some rp =>
          obtain ⟨r, p⟩ := rp
          have ho : olds dst old (x :: xs) = m r :: olds dst old xs := by
            rw [← hx r p hd]
            simp [olds, hd]
          rw [advance_some hd] at this
          rw [mapping_cons, advance_some hd, ho, names_cons_some hd, ← Multiset.cons_coe,
            ← Multiset.cons_coe, ← Multiset.singleton_add, ← Multiset.singleton_add]
          calc image (mapping dst (Function.update m r p) xs) + ({m r} + ↑(olds dst old xs))
              = (image (mapping dst (Function.update m r p) xs) + ↑(olds dst old xs)) + {m r} := by
                abel
            _ = (image (Function.update m r p) + {m r}) + ↑(names dst xs) := by
                rw [this]
                abel
            _ = image m + ({p} + ↑(names dst xs)) := by
                rw [image_update]
                abel

/-- When no name is live twice, the map after a prefix is injective and avoids the
    names introduced later. -/
theorem nodup_image_mapping (hr : Records dst old m xs)
    (hn : (image m + (names dst (xs ++ ys) : Multiset P)).Nodup) :
    (image (mapping dst m xs) + (names dst ys : Multiset P)).Nodup := by
  rw [names_append, ← Multiset.coe_add, ← add_assoc, ← image_mapping_add_olds hr] at hn
  refine Multiset.nodup_of_le ?_ hn
  rw [add_assoc, add_le_add_iff_left]
  exact Multiset.le_add_left _ _

end Conservation

end CpuSim.Lib.Renaming
