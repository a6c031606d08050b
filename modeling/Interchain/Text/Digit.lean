/-
Digits of bases up to 36, in either case.
-/

namespace Interchain

/-- Powers are those of the core library, whatever else is in scope. -/
@[default_instance 10001]
instance (priority := 10001) power {α : Type} [NatPow α] : Pow α Nat := instPowNat

namespace Digit

/-- A lower-case letter made upper case; other characters stay. -/
def upper (c : Char) : Char := if 'a' ≤ c ∧ c ≤ 'z' then Char.ofNat (c.toNat - 32) else c

/-- An upper-case letter made lower case; other characters stay. -/
def lower (c : Char) : Char := if 'A' ≤ c ∧ c ≤ 'Z' then Char.ofNat (c.toNat + 32) else c

/-- The lower-case digit of a number below 36. -/
def render (n : Nat) : Char :=
  if n < 10 then Char.ofNat (48 + n) else Char.ofNat (87 + n)

/-- The number a digit of either case stands for. -/
def value? (c : Char) : Option Nat :=
  if '0' ≤ c ∧ c ≤ '9' then some (c.toNat - 48)
  else if 'a' ≤ c ∧ c ≤ 'z' then some (c.toNat - 87)
  else if 'A' ≤ c ∧ c ≤ 'Z' then some (c.toNat - 55)
  else none

def read? (base : Nat) (c : Char) : Option (Fin base) :=
  match value? c with
  | some n => if h : n < base then some ⟨n, h⟩ else none
  | none => none

/-- The numbers that digits stand for, if each character is a digit of the base. -/
def readAll? (base : Nat) : List Char → Option (List (Fin base))
  | [] => some []
  | c :: cs =>
    match read? base c, readAll? base cs with
    | some d, some ds => some (d :: ds)
    | _, _ => none

/-- The number that digits spell, most significant first. -/
def number {base : Nat} (ds : List (Fin base)) : Nat := ds.foldl (fun n d => n * base + d.val) 0

theorem length_readAll? {base : Nat} {cs : List Char} {ds : List (Fin base)}
    (h : readAll? base cs = some ds) : ds.length = cs.length := by
  induction cs generalizing ds with
  | nil => cases h; rfl
  | cons c cs ih =>
    simp only [readAll?] at h
    split at h
    · next d ds' _ hds =>
      cases h
      simp only [List.length_cons, ih hds]
    · cases h

theorem foldl_lt (base : Nat) (ds : List (Fin base)) :
    ∀ n, ds.foldl (fun n d => n * base + d.val) n < (n + 1) * base ^ ds.length := by
  induction ds with
  | nil => intro n; simp
  | cons d ds ih =>
    intro n
    refine Nat.lt_of_lt_of_le (ih _) ?_
    rw [List.length_cons, Nat.pow_succ', ← Nat.mul_assoc]
    refine Nat.mul_le_mul_right _ ?_
    show n * base + d.val + 1 ≤ (n + 1) * base
    have := d.isLt
    rw [Nat.succ_mul]
    omega

theorem number_lt {base : Nat} (ds : List (Fin base)) : number ds < base ^ ds.length := by
  have := foldl_lt base ds 0
  rwa [Nat.zero_add, Nat.one_mul] at this

/-! ## Digits as they are written -/

theorem value?_render {n : Nat} (h : n < 36) : value? (render n) = some n := by
  have : ∀ k : Fin 36, value? (render k.val) = some k.val := by decide
  exact this ⟨n, h⟩

theorem value?_upper_render {n : Nat} (h : n < 36) : value? (upper (render n)) = some n := by
  have : ∀ k : Fin 36, value? (upper (render k.val)) = some k.val := by decide
  exact this ⟨n, h⟩

theorem lower_render {n : Nat} (h : n < 36) : lower (render n) = render n := by
  have : ∀ k : Fin 36, lower (render k.val) = render k.val := by decide
  exact this ⟨n, h⟩

theorem lower_upper_render {n : Nat} (h : n < 36) : lower (upper (render n)) = render n := by
  have : ∀ k : Fin 36, lower (upper (render k.val)) = render k.val := by decide
  exact this ⟨n, h⟩

theorem read?_render (d : Fin 16) : read? 16 (render d.val) = some d := by
  have := d.isLt
  simp only [read?, value?_render (Nat.lt_trans this (by decide)), this, dif_pos]

theorem read?_upper_render (d : Fin 16) : read? 16 (upper (render d.val)) = some d := by
  have := d.isLt
  simp only [read?, value?_upper_render (Nat.lt_trans this (by decide)), this, dif_pos]

/-- Reading sees characters only through the digits they are. -/
theorem readAll?_congr {base : Nat} {cs ds : List Char}
    (h : cs.map (read? base) = ds.map (read? base)) : readAll? base cs = readAll? base ds := by
  induction cs generalizing ds with
  | nil => cases ds with
    | nil => rfl
    | cons d ds => simp at h
  | cons c cs ih => cases ds with
    | nil => simp at h
    | cons d ds =>
      simp only [List.map_cons, List.cons.injEq] at h
      simp only [readAll?, h.1, ih h.2]

theorem readAll?_map_render (vs : List (Fin 16)) :
    readAll? 16 (vs.map (fun v => render v.val)) = some vs := by
  induction vs with
  | nil => rfl
  | cons v vs ih => simp only [List.map_cons, readAll?, read?_render, ih]

theorem value?_of_read? {base : Nat} {c : Char} {d : Fin base} (h : read? base c = some d) :
    value? c = some d.val := by
  rw [read?] at h
  split at h
  · next n hn =>
    split at h
    · cases h; exact hn
    · cases h
  · cases h

theorem toNat_lt_of_value? {c : Char} {n : Nat} (h : value? c = some n) : c.toNat < 128 := by
  have hle : ∀ {a b : Char}, a ≤ b ↔ a.toNat ≤ b.toNat := Iff.rfl
  have : ('9' : Char).toNat = 57 ∧ ('z' : Char).toNat = 122 ∧ ('Z' : Char).toNat = 90 := by decide
  simp only [value?, hle] at h
  split at h
  · omega
  · split at h
    · omega
    · split at h
      · omega
      · cases h

/-- The lower-case form of a digit is the one that is written. -/
theorem lower_of_value? {c : Char} {n : Nat} (h : value? c = some n) : lower c = render n := by
  have hlt := toNat_lt_of_value? h
  have key : ∀ k : Fin 128, (value? (Char.ofNat k.val)).all
      (fun m => lower (Char.ofNat k.val) = render m) = true := by decide
  have := key ⟨c.toNat, hlt⟩
  simp only [Char.ofNat_toNat, h, Option.all_some, decide_eq_true_eq] at this
  exact this

end Digit
end Interchain
