import Mathlib.Data.List.TakeWhile
import Mathlib.Tactic.Common

/-!
# Tokens between separators

The tokens of a text are the non-empty pieces between its separators. `takeToken` is how `strtok`
finds them, one at a time: it skips separators, takes the characters in front of the next one, and
drops that one. `tokens_of_takeToken` says that it takes the first token and leaves the others.
-/

set_option autoImplicit false
set_option relaxedAutoImplicit false

namespace Libhoth.Foundation.TokenText

variable {α : Type*} {separator : α → Bool}

/-- The non-empty pieces of a text between its separators. -/
def tokens (separator : α → Bool) (text : List α) : List (List α) :=
  (text.splitOnP separator).filter fun piece ↦ !piece.isEmpty

/-- `strtok`: the next token, and the text behind the separator that ends it. -/
def takeToken (separator : α → Bool) (text : List α) : Option (List α × List α) :=
  match text.dropWhile separator with
  | [] => none
  | char :: rest =>
    some ((char :: rest).takeWhile fun char ↦ !separator char,
      ((char :: rest).dropWhile fun char ↦ !separator char).tail)

@[simp] theorem tokens_nil (separator : α → Bool) : tokens separator [] = [] :=
  rfl

/-- A separator splits the tokens. -/
theorem tokens_append_cons {char : α} (hchar : separator char) (before after : List α) :
    tokens separator (before ++ char :: after) =
      tokens separator before ++ tokens separator after := by
  rw [tokens, List.splitOnP_append_cons before after hchar, List.filter_append]
  rfl

/-- A separator in front of a text is in no token. -/
theorem tokens_cons {char : α} (hchar : separator char) (text : List α) :
    tokens separator (char :: text) = tokens separator text :=
  tokens_append_cons hchar [] text

/-- A text without separators is one token. -/
theorem tokens_of_forall {token : List α} (hsome : token ≠ [])
    (htoken : ∀ char ∈ token, separator char = false) : tokens separator token = [token] := by
  rw [tokens, List.splitOnP_eq_singleton htoken]
  exact List.filter_cons_of_pos (by simpa using hsome)

/-- The separators in front of a text are in no token. -/
theorem tokens_dropWhile (text : List α) :
    tokens separator (text.dropWhile separator) = tokens separator text := by
  induction text with
  | nil => rfl
  | cons char text ih =>
    by_cases hchar : separator char
    · rw [List.dropWhile_cons_of_pos hchar, tokens_cons hchar, ih]
    · rw [List.dropWhile_cons_of_neg hchar]

/-- The first token of a text that does not begin with a separator. -/
theorem tokens_takeWhile {char : α} {text : List α} (hchar : separator char = false) :
    tokens separator (char :: text) =
      (char :: text).takeWhile (fun char ↦ !separator char) ::
        tokens separator ((char :: text).dropWhile fun char ↦ !separator char).tail := by
  have hsome : (char :: text).takeWhile (fun char ↦ !separator char) ≠ [] := by
    rw [List.takeWhile_cons_of_pos (by simpa using hchar)]
    exact List.cons_ne_nil _ _
  have htoken : ∀ other ∈ (char :: text).takeWhile (fun char ↦ !separator char),
      separator other = false := by
    intro other hother
    simpa using List.mem_takeWhile_imp hother
  have hsplit : (char :: text).takeWhile (fun char ↦ !separator char) ++
      (char :: text).dropWhile (fun char ↦ !separator char) = char :: text :=
    List.takeWhile_append_dropWhile
  cases hrest : (char :: text).dropWhile (fun char ↦ !separator char) with
  | nil =>
    rw [hrest, List.append_nil] at hsplit
    rw [hsplit] at hsome htoken ⊢
    rw [tokens_of_forall hsome htoken, List.tail_nil, tokens_nil]
  | cons stop rest =>
    have hstop : separator stop := by
      have hhead := List.head?_dropWhile_not (fun char ↦ !separator char) (char :: text)
      rw [hrest] at hhead
      simpa using hhead
    rw [hrest] at hsplit
    rw [← hsplit, tokens_append_cons hstop, tokens_of_forall hsome htoken]
    rw [hsplit]
    rfl

/-- There is a next token unless there are no tokens. -/
theorem tokens_of_takeToken_none {text : List α} (hnone : takeToken separator text = none) :
    tokens separator text = [] := by
  unfold takeToken at hnone
  split at hnone
  · rename_i hdrop
    rw [← tokens_dropWhile, hdrop, tokens_nil]
  · exact absurd hnone (Option.some_ne_none _)

/-- What is taken is the first token, and the others are left. -/
theorem tokens_of_takeToken {text token rest : List α}
    (htake : takeToken separator text = some (token, rest)) :
    tokens separator text = token :: tokens separator rest := by
  unfold takeToken at htake
  split at htake
  · exact absurd htake.symm (Option.some_ne_none _)
  · rename_i char tail hdrop
    obtain ⟨rfl, rfl⟩ := Prod.mk.inj (Option.some.inj htake)
    have hchar : separator char = false := by
      have hhead := List.head?_dropWhile_not separator text
      rw [hdrop] at hhead
      simpa using hhead
    rw [← tokens_dropWhile, hdrop, tokens_takeWhile hchar]

/-- Taking a token shortens the text. -/
theorem length_of_takeToken {text token rest : List α}
    (htake : takeToken separator text = some (token, rest)) : rest.length < text.length := by
  unfold takeToken at htake
  split at htake
  · exact absurd htake.symm (Option.some_ne_none _)
  · rename_i char tail hdrop
    obtain ⟨-, rfl⟩ := Prod.mk.inj (Option.some.inj htake)
    have hdropped := (List.dropWhile_suffix separator (l := text)).length_le
    have hshorter := (List.dropWhile_suffix (fun char ↦ !separator char)
      (l := char :: tail)).length_le
    rw [hdrop] at hdropped
    rw [List.length_tail]
    rw [List.length_cons] at hdropped hshorter
    omega

/-- The tokens of a text of one word, each time with a separator behind it. -/
theorem tokens_replicate {word : List α} {char : α} (hsome : word ≠ [])
    (hword : ∀ other ∈ word, separator other = false) (hchar : separator char) (count : ℕ) :
    tokens separator (List.replicate count (word ++ [char])).flatten =
      List.replicate count word := by
  induction count with
  | zero => rfl
  | succ count ih =>
    rw [List.replicate_succ, List.flatten_cons, List.append_assoc, List.singleton_append,
      tokens_append_cons hchar, tokens_of_forall hsome hword, ih, List.replicate_succ]
    rfl

end Libhoth.Foundation.TokenText
