import CobraProxy.Lib.Text

/-! Byte streams that a keyed hash is fed with, in the encodings of Rust's `Hash`: integers as eight
little-endian bytes, texts as UTF-8 closed by `0xff`, options as a discriminant and the payload. Each
can be read back from the front of a stream. Digests are printed in hexadecimal. -/

namespace Encoding

open Text

/-- The low `width` bytes of a number, the least first. -/
def leBytes : ℕ → ℕ → Bytes
  | 0, _ => []
  | width + 1, n => UInt8.ofNat n :: leBytes width (n / 256)

@[simp] theorem length_leBytes (width n : ℕ) : (leBytes width n).length = width := by
  induction width generalizing n with
  | zero => rfl
  | succ width ih => simp [leBytes, ih]

theorem leBytes_injOn {width m n : ℕ} (hm : m < 256 ^ width) (hn : n < 256 ^ width)
    (h : leBytes width m = leBytes width n) : m = n := by
  induction width generalizing m n with
  | zero => simp at hm hn; omega
  | succ width ih =>
    obtain ⟨hlow, hrest⟩ := List.cons.inj h
    have hlow : m % 256 = n % 256 := by simpa using congrArg UInt8.toNat hlow
    have hdiv : m / 256 = n / 256 := by
      refine ih ?_ ?_ hrest <;> rw [Nat.div_lt_iff_lt_mul (by decide), ← Nat.pow_succ] <;> assumption
    omega

/-- `u64` and `i64` of a nonnegative number. -/
def word (n : ℕ) : Bytes := leBytes 8 n

def text (s : Str) : Bytes := utf8 s ++ [0xff]

/-- The discriminant is hashed as an `isize`. -/
def option {α : Type*} (encode : α → Bytes) : Option α → Bytes
  | none => word 0
  | some a => word 1 ++ encode a

variable {m n : ℕ} {s t : Str} {rest rest' : Bytes}

theorem word_append_inj (hm : m < 2 ^ 64) (hn : n < 2 ^ 64) (h : word m ++ rest = word n ++ rest') :
    m = n ∧ rest = rest' := by
  obtain ⟨hw, hrest⟩ := List.append_inj h (by simp [word])
  exact ⟨leBytes_injOn (by simpa using hm) (by simpa using hn) hw, hrest⟩

/-- Where a mark ends what comes before it, the two parts of a list can be told apart. -/
theorem cut_inj {α : Type*} {mark : α → Prop} {a b x y : List α} {c d : α} (ha : ∀ e ∈ a, ¬ mark e)
    (hb : ∀ e ∈ b, ¬ mark e) (hc : mark c) (hd : mark d) (h : a ++ c :: x = b ++ d :: y) :
    a = b ∧ c :: x = d :: y := by
  induction a generalizing b with
  | nil =>
    cases b with
    | nil => exact ⟨rfl, h⟩
    | cons e b =>
      obtain ⟨rfl, -⟩ := List.cons.inj h
      exact absurd hc (hb c (List.mem_cons_self ..))
  | cons e a ih =>
    cases b with
    | nil =>
      obtain ⟨rfl, -⟩ := List.cons.inj h
      exact absurd hd (ha e (List.mem_cons_self ..))
    | cons f b =>
      rw [List.cons_append, List.cons_append] at h
      obtain ⟨rfl, htail⟩ := List.cons.inj h
      obtain ⟨rfl, heq⟩ := ih (fun g hg => ha g (List.mem_cons_of_mem _ hg))
        (fun g hg => hb g (List.mem_cons_of_mem _ hg)) htail
      exact ⟨rfl, heq⟩

/-- A text ends at the first `0xff`, which is in no UTF-8. -/
theorem text_append_inj (h : text s ++ rest = text t ++ rest') : s = t ∧ rest = rest' := by
  simp only [text, List.append_assoc, List.singleton_append] at h
  have hnone : ∀ (u : Str), ∀ e ∈ utf8 u, ¬ e = 0xff := fun u e he heq => ff_notMem_utf8 u (heq ▸ he)
  obtain ⟨hutf8, hrest⟩ := cut_inj (hnone s) (hnone t) rfl rfl h
  exact ⟨utf8_injective hutf8, (List.cons.inj hrest).2⟩

theorem option_append_inj {α : Type*} {encode : α → Bytes} {a b : Option α}
    (hencode : ∀ x y rest rest', a = some x → b = some y → encode x ++ rest = encode y ++ rest' →
      x = y ∧ rest = rest')
    (h : option encode a ++ rest = option encode b ++ rest') : a = b ∧ rest = rest' := by
  cases a with
  | none =>
    cases b with
    | none => exact ⟨rfl, (word_append_inj (by decide) (by decide) h).2⟩
    | some y =>
      simp only [option, List.append_assoc] at h
      exact absurd (word_append_inj (by decide) (by decide) h).1 (by decide)
  | some x =>
    cases b with
    | none =>
      simp only [option, List.append_assoc] at h
      exact absurd (word_append_inj (by decide) (by decide) h).1 (by decide)
    | some y =>
      simp only [option, List.append_assoc] at h
      obtain ⟨rfl, hrest⟩ := hencode x y rest rest' rfl rfl (word_append_inj (by decide) (by decide) h).2
      exact ⟨rfl, hrest⟩

/-- Two lower-case digits for each byte. -/
def hex (b : Bytes) : Str := b.flatMap fun x => [(x.toNat / 16).digitChar, (x.toNat % 16).digitChar]

theorem digitChar_injOn : ∀ m < 16, ∀ n < 16, m.digitChar = n.digitChar → m = n := by decide

theorem hex_injective : Function.Injective hex := by
  intro a b h
  induction a generalizing b with
  | nil =>
    cases b with
    | nil => rfl
    | cons y b => simp [hex] at h
  | cons x a ih =>
    cases b with
    | nil => simp [hex] at h
    | cons y b =>
      simp only [hex, List.flatMap_cons, List.cons_append, List.nil_append, List.cons.injEq] at h
      obtain ⟨hhigh, hlow, hrest⟩ := h
      have hx := x.toNat_lt
      have hy := y.toNat_lt
      have hhigh := digitChar_injOn _ (by omega) _ (by omega) hhigh
      have hlow := digitChar_injOn _ (by omega) _ (by omega) hlow
      rw [ih hrest, UInt8.toNat_inj.1 (by omega : x.toNat = y.toNat)]

end Encoding
