import Mathlib.Data.List.DropRight

/-!
# Trimming

Quotes are taken off a string, and blanks off a line, by dropping every character of a kind at both
ends. Characters of the kind that stand around a text make no difference, what is left begins and
ends with a character of another kind, and a text that does so already is left as it is.
-/

set_option autoImplicit false

namespace AmbientCatalog

def trimmed (kind : Char → Bool) (cs : List Char) : List Char :=
  (cs.dropWhile kind).rdropWhile kind

section

variable {kind : Char → Bool}

theorem rdropWhile_append_all {after : List Char} (h : ∀ c ∈ after, kind c = true)
    (cs : List Char) : (cs ++ after).rdropWhile kind = cs.rdropWhile kind := by
  rw [List.rdropWhile, List.reverse_append, List.dropWhile_append_of_pos (by simpa using h),
    List.rdropWhile]

theorem trimmed_append {before after : List Char} (hbefore : ∀ c ∈ before, kind c = true)
    (hafter : ∀ c ∈ after, kind c = true) (cs : List Char) :
    trimmed kind (before ++ cs ++ after) = trimmed kind cs := by
  rw [trimmed, trimmed, List.append_assoc, List.dropWhile_append_of_pos hbefore,
    List.dropWhile_append]
  split_ifs with hempty
  · rw [List.isEmpty_iff.mp hempty, List.dropWhile_eq_nil_iff.mpr hafter]
  · rw [rdropWhile_append_all hafter]

theorem exists_around_trimmed (kind : Char → Bool) (cs : List Char) :
    ∃ before after, (∀ c ∈ before, kind c = true) ∧ (∀ c ∈ after, kind c = true) ∧
      cs = before ++ trimmed kind cs ++ after := by
  refine ⟨cs.takeWhile kind, (cs.dropWhile kind).rtakeWhile kind,
    fun c hc => List.mem_takeWhile_imp hc, fun c hc => List.mem_rtakeWhile_imp hc, ?_⟩
  rw [trimmed, List.append_assoc, List.rdropWhile_append_rtakeWhile,
    List.takeWhile_append_dropWhile]

theorem trimmed_cons {c : Char} (hc : kind c = false) (cs : List Char) :
    trimmed kind (c :: cs) = c :: cs.rdropWhile kind := by
  rw [trimmed, List.dropWhile_cons_of_neg (by simp [hc]), List.rdropWhile, List.reverse_cons,
    List.dropWhile_append, List.dropWhile_cons_of_neg (by simp [hc])]
  split_ifs with hempty
  · rw [List.rdropWhile, List.isEmpty_iff.mp hempty]
    rfl
  · rw [List.reverse_append, List.rdropWhile]
    rfl

theorem trimmed_trimmed (cs : List Char) : trimmed kind (trimmed kind cs) = trimmed kind cs := by
  obtain ⟨before, after, hbefore, hafter, heq⟩ := exists_around_trimmed kind cs
  conv_rhs => rw [heq, trimmed_append hbefore hafter]

theorem trimmed_eq_self_iff {cs : List Char} :
    trimmed kind cs = cs ↔
      (∀ c ∈ cs.head?, kind c = false) ∧ ∀ c ∈ cs.getLast?, kind c = false := by
  cases cs with
  | nil => simp [trimmed]
  | cons c cs =>
    cases hc : kind c with
    | false =>
      have hdrop : (c :: cs).dropWhile kind = c :: cs := by simp [hc]
      rw [trimmed, hdrop, List.rdropWhile_eq_self_iff]
      simp [hc, List.getLast?_eq_some_getLast]
    | true =>
      refine iff_of_false (fun h => ?_) (fun h => by simp [hc] at h)
      -- a first character of the kind is dropped, so what is left is shorter
      have hle : (trimmed kind (c :: cs)).length ≤ cs.length := by
        rw [trimmed, List.dropWhile_cons_of_pos hc]
        exact (List.rdropWhile_prefix kind _).length_le.trans
          (List.dropWhile_suffix kind).length_le
      rw [h, List.length_cons] at hle
      omega

end

end AmbientCatalog
