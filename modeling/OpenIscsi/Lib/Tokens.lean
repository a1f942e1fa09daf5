import Mathlib

/-!
# Tokens and sections

The tokens of a list are its longest parts without the separator; the sections
of a list of tokens start at the tokens that satisfy a predicate.
-/

namespace Tokens

open List

variable {α : Type} [DecidableEq α]

def tokensFrom (sep : α) : List α → List α → List (List α)
  | [], cur => if cur = [] then [] else [cur]
  | b :: l, cur =>
    if b = sep then (if cur = [] then [] else [cur]) ++ tokensFrom sep l []
    else tokensFrom sep l (cur ++ [b])

def tokens (sep : α) (l : List α) : List (List α) := tokensFrom sep l []

variable (sep : α) (l : List α) (n : Nat)

@[simp] theorem tokens_nil : tokens sep [] = [] := rfl

@[simp] theorem tokens_sep_cons : tokens sep (sep :: l) = tokens sep l := by
  simp [tokens, tokensFrom]

theorem tokensFrom_append (cur rest : List α) :
    tokensFrom sep (l ++ sep :: rest) cur = tokensFrom sep l cur ++ tokens sep rest := by
  induction l generalizing cur with
  | nil => simp [tokensFrom, tokens]
  | cons b l ih =>
    by_cases hb : b = sep
    · simp only [cons_append, tokensFrom, hb, if_true, ih, append_assoc]
    · simp only [cons_append, tokensFrom, hb, if_false, ih]

/-- A separator splits the tokens. -/
theorem tokens_append (rest : List α) :
    tokens sep (l ++ sep :: rest) = tokens sep l ++ tokens sep rest :=
  tokensFrom_append sep l [] rest

theorem tokensFrom_token (cur : List α) (hl : sep ∉ l) (hne : cur ++ l ≠ []) :
    tokensFrom sep l cur = [cur ++ l] := by
  induction l generalizing cur with
  | nil =>
    have hcur : cur ≠ [] := by simpa using hne
    simp [tokensFrom, hcur]
  | cons b l ih =>
    simp only [mem_cons, not_or] at hl
    have hb : b ≠ sep := Ne.symm hl.1
    rw [tokensFrom, if_neg hb, ih (cur ++ [b]) hl.2 (by simp)]
    simp

theorem tokens_token {l : List α} (hl : sep ∉ l) (hne : l ≠ []) : tokens sep l = [l] :=
  tokensFrom_token sep l [] hl (by simpa using hne)

/-- Separators alone have no tokens. -/
theorem tokens_replicate : tokens sep (List.replicate n sep) = [] := by
  induction n with
  | zero => rfl
  | succ n ih => rw [replicate_succ, tokens_sep_cons, ih]

theorem tokens_replicate_append (l : List α) :
    tokens sep (List.replicate n sep ++ l) = tokens sep l := by
  induction n with
  | zero => rfl
  | succ n ih => rw [replicate_succ, cons_append, tokens_sep_cons, ih]

theorem tokensFrom_ne_nil {cur : List α} (hcur : cur ≠ []) : tokensFrom sep l cur ≠ [] := by
  induction l generalizing cur with
  | nil => simp [tokensFrom, hcur]
  | cons b l ih =>
    by_cases hb : b = sep
    · simp [tokensFrom, hb, hcur]
    · rw [tokensFrom, if_neg hb]
      exact ih (by simp)

/-- A list that starts with no separator has a token. -/
theorem tokens_ne_nil {b : α} (hb : b ≠ sep) : tokens sep (b :: l) ≠ [] := by
  rw [tokens, tokensFrom, if_neg hb]
  exact tokensFrom_ne_nil sep l (by simp)

/-- More separators behind a list add nothing. -/
theorem tokens_append_replicate : tokens sep (l ++ List.replicate n sep) = tokens sep l := by
  cases n with
  | zero => simp
  | succ n => rw [replicate_succ, tokens_append, tokens_replicate, append_nil]

section Sections

variable {β : Type} (p : β → Bool)

/-- Each element that satisfies `p`, with what follows up to the next one. -/
def sections : List β → List (β × List β)
  | [] => []
  | x :: xs => if p x then (x, xs.takeWhile (fun y => !p y)) :: sections xs else sections xs

theorem sections_of_none {xs : List β} (h : ∀ x ∈ xs, p x = false) : sections p xs = [] := by
  induction xs with
  | nil => rfl
  | cons x xs ih =>
    rw [sections, if_neg (by simp [h x (by simp)])]
    exact ih (fun y hy => h y (by simp [hy]))

variable {x : β}

/-- One section. -/
theorem sections_single {xs : List β} (hx : p x = true) (h : ∀ y ∈ xs, p y = false) :
    sections p (x :: xs) = [(x, xs)] := by
  have hall : xs.takeWhile (fun y => !p y) = xs :=
    takeWhile_eq_self_iff.mpr (fun y hy => by simp [h y hy])
  rw [sections, if_pos hx, hall, sections_of_none p h]

theorem takeWhile_append_stop (hx : p x = true) (ks xs : List β) :
    (ks ++ x :: xs).takeWhile (fun y => !p y) = ks.takeWhile (fun y => !p y) := by
  induction ks with
  | nil => simp [hx]
  | cons k ks ih => simp only [cons_append, takeWhile_cons, ih]

/-- The sections before the start of a section do not depend on what follows. -/
theorem sections_append (hx : p x = true) (ks xs : List β) :
    sections p (ks ++ x :: xs) = sections p ks ++ sections p (x :: xs) := by
  induction ks with
  | nil => rfl
  | cons k ks ih =>
    by_cases hk : p k = true
    · simp only [cons_append, sections.eq_2 p k, hk, if_true, takeWhile_append_stop p hx]
      rw [ih]
    · simp only [cons_append, sections.eq_2 p k, hk]
      exact ih

end Sections

end Tokens
