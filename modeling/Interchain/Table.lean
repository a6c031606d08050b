/-
Tables that keep their keys in the order of first insertion.
-/

namespace Interchain

abbrev Table (κ ν : Type) := List (κ × ν)

namespace Table

variable {κ ν : Type} [DecidableEq κ]

def get? (k : κ) : Table κ ν → Option ν
  | [] => none
  | (k', v) :: t => if k' = k then some v else get? k t

/-- Sets the value of a key, in place if the key is there and at the end if not. -/
def put (k : κ) (v : ν) : Table κ ν → Table κ ν
  | [] => [(k, v)]
  | (k', v') :: t => if k' = k then (k, v) :: t else (k', v') :: put k v t

def erase (k : κ) (t : Table κ ν) : Table κ ν := t.filter (fun e => e.1 ≠ k)

def keys (t : Table κ ν) : List κ := t.map Prod.fst

/-! ## What a look-up sees of each operation -/

theorem get?_put_self (k : κ) (v : ν) (t : Table κ ν) : get? k (put k v t) = some v := by
  induction t with
  | nil => simp only [put, get?, if_true]
  | cons e t ih =>
    by_cases h : e.1 = k
    · simp only [put, h, if_true, get?]
    · simp only [put, h, if_false, get?, ih]

theorem get?_put_of_ne {j k : κ} (h : j ≠ k) (v : ν) (t : Table κ ν) :
    get? j (put k v t) = get? j t := by
  have hk : ¬ k = j := fun e => h e.symm
  induction t with
  | nil => simp only [put, get?, hk, if_false]
  | cons e t ih =>
    by_cases he : e.1 = k
    · simp only [put, he, if_true, get?, hk, if_false]
    · simp only [put, he, if_false, get?, ih]

/-- A key that is there keeps its place, and a new one comes last. -/
theorem keys_put (k : κ) (v : ν) (t : Table κ ν) :
    keys (put k v t) = if k ∈ keys t then keys t else keys t ++ [k] := by
  induction t with
  | nil => rfl
  | cons e t ih =>
    have hcons : keys (e :: t) = e.1 :: keys t := rfl
    by_cases h : e.1 = k
    · have : k ∈ keys (e :: t) := by rw [hcons, h]; exact List.mem_cons_self
      rw [put, if_pos h, if_pos this, hcons, h]
      rfl
    · have hm : k ∈ keys (e :: t) ↔ k ∈ keys t := by
        rw [hcons, List.mem_cons]
        exact or_iff_right (fun e' => h e'.symm)
      rw [put, if_neg h]
      show e.1 :: keys (put k v t) = _
      by_cases hk : k ∈ keys t
      · rw [ih, if_pos hk, if_pos (hm.2 hk), hcons]
      · rw [ih, if_neg hk, if_neg (fun hk' => hk (hm.1 hk')), hcons, List.cons_append]

theorem mem_keys_put {j k : κ} {v : ν} {t : Table κ ν} :
    j ∈ keys (put k v t) ↔ j = k ∨ j ∈ keys t := by
  rw [keys_put]
  by_cases h : k ∈ keys t
  · rw [if_pos h]
    exact ⟨Or.inr, fun hj => hj.elim (fun e => e ▸ h) id⟩
  · rw [if_neg h, List.mem_append, List.mem_singleton]
    exact or_comm

theorem mem_keys_erase {j k : κ} {t : Table κ ν} :
    j ∈ keys (erase k t) ↔ j ≠ k ∧ j ∈ keys t := by
  simp only [keys, erase, List.mem_map, List.mem_filter, decide_eq_true_eq]
  constructor
  · rintro ⟨e, ⟨he, hk⟩, rfl⟩
    exact ⟨hk, e, he, rfl⟩
  · rintro ⟨hk, e, he, rfl⟩
    exact ⟨e, ⟨he, hk⟩, rfl⟩

theorem get?_eq_none_iff {k : κ} {t : Table κ ν} : get? k t = none ↔ k ∉ keys t := by
  induction t with
  | nil => simp [get?, keys]
  | cons e t ih =>
    have hcons : keys (e :: t) = e.1 :: keys t := rfl
    rw [hcons, List.mem_cons, not_or, get?]
    by_cases h : e.1 = k
    · simp [h]
    · rw [if_neg h, ih]
      exact ⟨fun hk => ⟨fun e' => h e'.symm, hk⟩, And.right⟩

theorem put_of_get?_eq_none {k : κ} {v : ν} {t : Table κ ν} (h : get? k t = none) :
    put k v t = t ++ [(k, v)] := by
  induction t with
  | nil => rfl
  | cons e t ih =>
    by_cases he : e.1 = k
    · rw [get?, if_pos he] at h
      cases h
    · rw [get?, if_neg he] at h
      rw [put, if_neg he, ih h, List.cons_append]

theorem mem_put {k : κ} {v : ν} {t : Table κ ν} {e : κ × ν} (h : e ∈ put k v t) :
    e = (k, v) ∨ e ∈ t := by
  induction t with
  | nil => exact Or.inl (List.mem_singleton.1 h)
  | cons f t ih =>
    rw [put] at h
    split at h
    · rcases List.mem_cons.1 h with rfl | h
      · exact Or.inl rfl
      · exact Or.inr (List.mem_cons_of_mem _ h)
    · rcases List.mem_cons.1 h with rfl | h
      · exact Or.inr List.mem_cons_self
      · exact (ih h).imp_right (List.mem_cons_of_mem _)

theorem nodup_keys_put {k : κ} {v : ν} {t : Table κ ν} (h : (keys t).Nodup) :
    (keys (put k v t)).Nodup := by
  rw [keys_put]
  by_cases hk : k ∈ keys t
  · rwa [if_pos hk]
  · rw [if_neg hk, List.nodup_append]
    refine ⟨h, List.nodup_cons.2 ⟨List.not_mem_nil, List.nodup_nil⟩, ?_⟩
    intro a ha b hb hab
    rw [List.mem_singleton] at hb
    exact hk (hb ▸ hab ▸ ha)

theorem erase_cons (k : κ) (e : κ × ν) (t : Table κ ν) :
    erase k (e :: t) = if e.1 = k then erase k t else e :: erase k t := by
  by_cases h : e.1 = k
  · rw [if_pos h, erase, List.filter_cons_of_neg (by simp [h])]
    rfl
  · rw [if_neg h, erase, List.filter_cons_of_pos (by simp [h])]
    rfl

theorem get?_erase_of_ne {j k : κ} (h : j ≠ k) (t : Table κ ν) :
    get? j (erase k t) = get? j t := by
  induction t with
  | nil => rfl
  | cons e t ih =>
    rw [erase_cons]
    by_cases he : e.1 = k
    · have hne : ¬ e.1 = j := fun hj => h (hj.symm.trans he)
      rw [if_pos he, ih, get?, if_neg hne]
    · rw [if_neg he, get?, get?, ih]

/-! ## What undoes an operation -/

theorem put_put (k : κ) (v w : ν) (t : Table κ ν) : put k w (put k v t) = put k w t := by
  induction t with
  | nil => simp only [put, if_true]
  | cons e t ih =>
    by_cases h : e.1 = k
    · simp only [put, h, if_true]
    · simp only [put, h, if_false, ih]

theorem put_get? {k : κ} {v : ν} {t : Table κ ν} (h : get? k t = some v) : put k v t = t := by
  induction t with
  | nil => cases h
  | cons e t ih =>
    by_cases he : e.1 = k
    · rw [get?, if_pos he, Option.some.injEq] at h
      rw [put, if_pos he, ← he, ← h]
    · rw [get?, if_neg he] at h
      rw [put, if_neg he, ih h]

theorem erase_put (k : κ) (v : ν) (t : Table κ ν) : erase k (put k v t) = erase k t := by
  induction t with
  | nil => simp only [put, erase_cons, if_true]
  | cons e t ih =>
    by_cases h : e.1 = k
    · simp only [put, h, if_true, erase_cons]
    · simp only [put, h, if_false, erase_cons, ih]

theorem erase_of_get?_eq_none {k : κ} {t : Table κ ν} (h : get? k t = none) : erase k t = t := by
  rw [get?_eq_none_iff] at h
  refine List.filter_eq_self.2 (fun e he => ?_)
  rw [decide_eq_true_eq]
  exact fun hk => h (hk ▸ List.mem_map_of_mem he)

theorem put_comm_of_mem {j k : κ} (hne : j ≠ k) {t : Table κ ν} (hj : j ∈ keys t) (v w : ν) :
    put j w (put k v t) = put k v (put j w t) := by
  induction t with
  | nil => cases hj
  | cons e t ih =>
    by_cases h : e.1 = j
    · have hk : ¬ e.1 = k := fun e' => hne (h.symm.trans e')
      rw [put, if_neg hk, put, if_pos h, put, if_pos h, put, if_neg hne]
    · have hj : j ∈ keys t := (List.mem_cons.1 hj).resolve_left (fun e' => h e'.symm)
      by_cases hk : e.1 = k
      · have hk' : ¬ k = j := fun e' => hne e'.symm
        simp only [put, hk, if_true, hk', if_false]
      · simp only [put, h, hk, if_false, ih hj]

theorem erase_put_of_ne {j k : κ} (hne : j ≠ k) (v : ν) (t : Table κ ν) :
    erase j (put k v t) = put k v (erase j t) := by
  have hk' : ¬ k = j := fun e => hne e.symm
  induction t with
  | nil =>
    rw [put, erase_cons, if_neg hk']
    rfl
  | cons e t ih =>
    by_cases h : e.1 = j
    · have hk : ¬ e.1 = k := fun e' => hne (h.symm.trans e')
      rw [put, if_neg hk, erase_cons, if_pos h, erase_cons, if_pos h, ih]
    · by_cases hk : e.1 = k
      · simp only [put, hk, if_true, erase_cons, hk', if_false]
      · simp only [put, hk, if_false, erase_cons, h, ih]

/-! ## Changes of the values -/

variable {μ : Type}

def mapValues (f : ν → μ) (t : Table κ ν) : Table κ μ := t.map (fun e => (e.1, f e.2))

theorem get?_mapValues (f : ν → μ) (k : κ) (t : Table κ ν) :
    get? k (mapValues f t) = (get? k t).map f := by
  induction t with
  | nil => rfl
  | cons e t ih =>
    show get? k ((e.1, f e.2) :: mapValues f t) = _
    by_cases h : e.1 = k
    · simp only [get?, h, if_true, Option.map_some]
    · simp only [get?, h, if_false, ih]

theorem mapValues_put (f : ν → μ) (k : κ) (v : ν) (t : Table κ ν) :
    mapValues f (put k v t) = put k (f v) (mapValues f t) := by
  induction t with
  | nil => rfl
  | cons e t ih =>
    show _ = put k (f v) ((e.1, f e.2) :: mapValues f t)
    by_cases h : e.1 = k
    · simp only [put, h, if_true]
      rfl
    · simp only [put, h, if_false, ← ih]
      rfl

theorem get?_of_mem {k : κ} {v : ν} {t : Table κ ν} (hnodup : (keys t).Nodup)
    (h : (k, v) ∈ t) : get? k t = some v := by
  induction t with
  | nil => cases h
  | cons e t ih =>
    obtain ⟨hfresh, hnodup⟩ := List.nodup_cons.1 hnodup
    rcases List.mem_cons.1 h with rfl | h
    · rw [get?, if_pos rfl]
    · have hk : k ∈ keys t := List.mem_map_of_mem h
      have hne : e.1 ≠ k := by
        intro he
        rw [he] at hfresh
        exact hfresh hk
      rw [get?, if_neg hne]
      exact ih hnodup h

/-- Changing the value of one key throughout a table is setting it, if the key is there once. -/
theorem map_update (f : ν → ν) {k : κ} {v : ν} {t : Table κ ν} (hnodup : (keys t).Nodup)
    (h : get? k t = some v) :
    t.map (fun e => if e.1 = k then (e.1, f e.2) else e) = put k (f v) t := by
  induction t with
  | nil => cases h
  | cons e t ih =>
    obtain ⟨hfresh, hnodup⟩ := List.nodup_cons.1 hnodup
    rw [List.map_cons]
    by_cases he : e.1 = k
    · rw [get?, if_pos he, Option.some.injEq] at h
      have hrest : t.map (fun e => if e.1 = k then (e.1, f e.2) else e) = t := by
        conv => rhs; rw [← List.map_id t]
        refine List.map_congr_left (fun e' he' => if_neg (fun hk => ?_))
        rw [he, ← hk] at hfresh
        exact hfresh (List.mem_map_of_mem he')
      rw [hrest, put, if_pos he, if_pos he, he, h]
    · rw [get?, if_neg he] at h
      rw [put, if_neg he, if_neg he, ih hnodup h]

/-! ## Sums over the values -/

/-- The sum of a quantity over the values. -/
def sum (f : ν → Nat) : Table κ ν → Nat
  | [] => 0
  | e :: t => f e.2 + sum f t

/-- Setting a value trades what the key had for what it gets. -/
theorem sum_put (f : ν → Nat) (k : κ) (v : ν) (t : Table κ ν) :
    sum f (put k v t) + ((get? k t).map f).getD 0 = sum f t + f v := by
  induction t with
  | nil => simp [put, sum, get?]
  | cons e t ih =>
    by_cases h : e.1 = k
    · simp only [put, get?, h, if_true, sum, Option.map_some, Option.getD_some]
      omega
    · simp only [put, get?, h, if_false, sum]
      omega

theorem le_sum_of_get? (f : ν → Nat) {k : κ} {v : ν} {t : Table κ ν} (h : get? k t = some v) :
    f v ≤ sum f t := by
  induction t with
  | nil => cases h
  | cons e t ih =>
    rw [sum]
    by_cases he : e.1 = k
    · rw [get?, if_pos he, Option.some.injEq] at h
      rw [h]
      exact Nat.le_add_right _ _
    · rw [get?, if_neg he] at h
      exact Nat.le_trans (ih h) (Nat.le_add_left _ _)

end Table
end Interchain
