import BenchLedger.Text.Quoted
import Mathlib.Tactic.Common

/-! # Texts of one line

A number is written without an end of a line (`oneLine_repr`), and so is any text in quotes, as the
ends of its lines are escaped (`oneLine_quoted`). -/

namespace BenchLedger.Text

/-- No line ends within the text. -/
def OneLine (text : String) : Prop := '\n' ∉ text.toList

instance (text : String) : Decidable (OneLine text) := by unfold OneLine; infer_instance

theorem OneLine.append {text rest : String} (h : OneLine text) (hrest : OneLine rest) :
    OneLine (text ++ rest) := by
  unfold OneLine at h hrest ⊢
  rw [String.toList_append, List.mem_append]
  exact not_or.mpr ⟨h, hrest⟩

theorem digitChar_ne_feed (n : ℕ) : Nat.digitChar n ≠ '\n' := by
  by_cases hlt : n < 16
  · exact (by decide : ∀ n < 16, Nat.digitChar n ≠ '\n') n hlt
  · unfold Nat.digitChar
    repeat rw [if_neg (by omega)]
    decide

theorem feed_not_mem_toDigits {base : ℕ} (hbase : 1 < base) (n : ℕ) :
    '\n' ∉ Nat.toDigits base n := by
  induction n using Nat.strongRecOn with
  | ind n ih =>
    rw [Nat.toDigits_eq_if hbase]
    split_ifs with hlt
    · exact fun h => digitChar_ne_feed n (List.mem_singleton.mp h).symm
    · rw [List.mem_append, not_or]
      have hsmaller : n / base < n := Nat.div_lt_self (by omega) hbase
      exact ⟨ih _ hsmaller, fun h => digitChar_ne_feed _ (List.mem_singleton.mp h).symm⟩

theorem oneLine_repr (n : ℕ) : OneLine n.repr := by
  unfold OneLine
  rw [Nat.toList_repr]
  exact feed_not_mem_toDigits (by decide) n

theorem feed_not_mem_escaped (c : Char) : '\n' ∉ escaped c := by
  have hhex : '\n' ∉ hexadecimal c.toNat := feed_not_mem_toDigits (by decide) _
  unfold escaped
  split_ifs with hnul htab hfeed hreturn hmark helusive
  · decide
  · decide
  · decide
  · decide
  · rcases Bool.or_eq_true_iff.mp hmark with hquote | hback
    · rw [of_decide_eq_true hquote]
      decide
    · rw [of_decide_eq_true hback]
      decide
  · simp [hhex]
  · exact fun h => hfeed (List.mem_singleton.mp h).symm

/-- **A text in quotes is one line.** -/
theorem oneLine_quoted (text : String) : OneLine (quoted text) := by
  have hescaped : '\n' ∉ text.toList.flatMap escaped := by
    intro h
    obtain ⟨c, -, hc⟩ := List.mem_flatMap.mp h
    exact feed_not_mem_escaped c hc
  unfold OneLine quoted
  rw [String.toList_ofList]
  simp [hescaped]

theorem oneLine_ofList {text : List Char} (h : '\n' ∉ text) : OneLine (String.ofList text) := by
  unfold OneLine
  rwa [String.toList_ofList]

theorem oneLine_intercalate {separator : String} (h : OneLine separator) {texts : List String}
    (htexts : ∀ text ∈ texts, OneLine text) : OneLine (separator.intercalate texts) := by
  induction texts with
  | nil =>
    rw [String.intercalate_nil]
    decide
  | cons text texts ih =>
    obtain ⟨htext, hrest⟩ := List.forall_mem_cons.mp htexts
    cases texts with
    | nil => rwa [String.intercalate_singleton]
    | cons next texts =>
      rw [String.intercalate_cons_cons]
      exact (htext.append h).append (ih hrest)

end BenchLedger.Text
