import Mathlib.Data.List.Basic

/-!
# Tokens of a stream

A tokenizer finds the first token of a list, and finds the same one when more comes. A reader that
keeps what comes after the last complete token handles the same tokens for all ways of cutting the
list into chunks.

## Main definitions

* `Tokenizer` — a tokenizer whose first token is stable.
* `Tokenizer.tokens` — the complete tokens of a list, and what comes after them.
* `Tokenizer.drain` — handle the tokens one after the other, until one of them ends the loop.

## Main results

* `Tokenizer.drain_eq` — the loop ends with the first token that ends it.
* `Tokenizer.drain_append` — the loop over two chunks.
-/

/-- A tokenizer. -/
structure Tokenizer (α β : Type) where
  /-- The first token, and what comes after it. -/
  next : List α → Option (β × List α)
  /-- A token takes up something. -/
  length_lt : ∀ {l rest : List α} {b : β}, next l = some (b, rest) → rest.length < l.length
  /-- A token stays one when more comes. -/
  next_append : ∀ {l rest : List α} {b : β} (l' : List α), next l = some (b, rest) →
    next (l ++ l') = some (b, rest ++ l')

namespace Tokenizer

variable {α β ρ : Type} (T : Tokenizer α β)

/-- The complete tokens, and what comes after them. -/
def tokens (l : List α) : List β × List α :=
  match h : T.next l with
  | none => ([], l)
  | some (b, rest) =>
    have := T.length_lt h
    (b :: (tokens rest).1, (tokens rest).2)
termination_by l.length

/-- Handle the tokens one after the other until one of them ends the loop, or return what comes
after them. -/
def drain (handle : β → Option ρ) (l : List α) : ρ ⊕ List α :=
  match h : T.next l with
  | none => .inr l
  | some (b, rest) =>
    have := T.length_lt h
    match handle b with
    | some r => .inl r
    | none => drain handle rest
termination_by l.length

variable {T} {l l' rest : List α} {b : β} {handle : β → Option ρ}

/-- **Induction token by token.** -/
lemma induction_on {P : List α → Prop} (l : List α) (hnone : ∀ l, T.next l = none → P l)
    (hsome : ∀ l b rest, T.next l = some (b, rest) → P rest → P l) : P l := by
  induction hn : l.length using Nat.strongRecOn generalizing l with
  | ind n ih =>
    cases h : T.next l with
    | none => exact hnone l h
    | some r =>
      obtain ⟨b, rest⟩ := r
      exact hsome l b rest h (ih rest.length (hn ▸ T.length_lt h) rest rfl)

lemma tokens_of_none (h : T.next l = none) : T.tokens l = ([], l) := by
  rw [tokens]
  split
  · rfl
  · next heq => cases h.symm.trans heq

lemma tokens_of_some (h : T.next l = some (b, rest)) :
    T.tokens l = (b :: (T.tokens rest).1, (T.tokens rest).2) := by
  rw [tokens]
  split
  · next heq => cases h.symm.trans heq
  · next heq =>
    cases h.symm.trans heq
    rfl

lemma drain_of_none (h : T.next l = none) : T.drain handle l = .inr l := by
  rw [drain]
  split
  · rfl
  · next heq => cases h.symm.trans heq

lemma drain_of_some (h : T.next l = some (b, rest)) :
    T.drain handle l = (handle b).elim (T.drain handle rest) .inl := by
  rw [drain]
  split
  · next heq => cases h.symm.trans heq
  · next heq =>
    cases h.symm.trans heq
    cases handle b <;> rfl

/-- There is no complete token in what comes after the tokens. -/
lemma next_snd_tokens (l : List α) : T.next (T.tokens l).2 = none := by
  induction l using T.induction_on with
  | hnone l h => rwa [tokens_of_none h]
  | hsome l b rest h ih => rwa [tokens_of_some h]

/-- **The loop ends with the first token that ends it.** -/
lemma drain_eq (l : List α) :
    T.drain handle l = ((T.tokens l).1.findSome? handle).elim (.inr (T.tokens l).2) .inl := by
  induction l using T.induction_on with
  | hnone l h =>
    rw [drain_of_none h, tokens_of_none h]
    rfl
  | hsome l b rest h ih =>
    rw [drain_of_some h, tokens_of_some h, List.findSome?_cons, ih]
    cases handle b <;> rfl

/-- What the loop leaves has no complete token. -/
lemma next_of_drain (h : T.drain handle l = .inr rest) : T.next rest = none := by
  rw [drain_eq] at h
  cases hfind : (T.tokens l).1.findSome? handle with
  | none =>
    rw [hfind] at h
    cases h
    exact next_snd_tokens l
  | some r =>
    rw [hfind] at h
    cases h

/-- **The loop over two chunks** goes on with what the first one leaves. -/
lemma drain_append (l l' : List α) :
    T.drain handle (l ++ l') =
      (T.drain handle l).elim .inl fun rest => T.drain handle (rest ++ l') := by
  induction l using T.induction_on with
  | hnone l h =>
    rw [drain_of_none h]
    rfl
  | hsome l b rest h ih =>
    rw [drain_of_some h, drain_of_some (T.next_append l' h), ih]
    cases handle b <;> rfl

end Tokenizer
