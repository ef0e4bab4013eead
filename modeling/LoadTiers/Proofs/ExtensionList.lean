import LoadTiers.Config
import LoadTiers.Proofs.Text.Padding

/-! # Lists of extensions

A list of extensions stands for all of them or for a set of names, which depends on nothing but the
items without quotes and without blanks at their ends. An array in a configuration, a text in a
configuration and an option on the command line mean the same.
-/

namespace LoadTiers

namespace Text

theorem joinBy_eq_intercalate (sep : Char) (fs : List (List Char)) :
    joinBy sep fs = [sep].intercalate fs := by
  induction fs with
  | nil => rfl
  | cons f fs ih =>
    cases fs with
    | nil => simp [joinBy]
    | cons g gs =>
      rw [joinBy_cons (List.cons_ne_nil g gs), ih, List.intercalate_cons_cons, List.append_assoc]
      rfl

theorem splitOn_intercalate {items : List String} (hn : items ≠ [])
    (h : ∀ item ∈ items, ',' ∉ item.toList) : splitOn ',' (",".intercalate items) = items := by
  have hs : (",".intercalate items).toList = joinBy ',' (items.map String.toList) := by
    rw [String.toList_intercalate, joinBy_eq_intercalate]
    rfl
  rw [splitOn, hs, fields_joinBy]
  · simp
  · simpa using hn
  · simpa using h

end Text

open Text

namespace ExtensionSelection

variable {items items' : List String} {S : NameSet} {n : String}

theorem quote_not_mem_clean {c : Char} {item : String} (h : c ∈ (clean item).toList) :
    c ≠ '"' ∧ c ≠ '\'' := by
  rw [clean, String.toList_ofList] at h
  simpa using (List.mem_filter.mp (mem_of_mem_trimBy h)).2

theorem clean_clean (item : String) : clean (clean item) = clean item := by
  have hf : (clean item).toList.filter (fun c => c ≠ '"' ∧ c ≠ '\'') = (clean item).toList := by
    rw [List.filter_eq_self]
    intro c hc
    simpa using quote_not_mem_clean hc
  rw [clean, hf]
  simp only [clean, String.toList_ofList, trimBy_trimBy]

theorem ofNames_eq_all_iff : ofNames items = all ↔ ∃ item ∈ items, clean item = "all" := by
  rw [← List.mem_map, ofNames]
  split
  · next h => exact iff_of_true rfl h
  · next h => exact iff_of_false nofun h

/-- The names are the items that are left after cleaning. -/
theorem ofNames_eq_named_iff : ofNames items = named S ↔
    (∀ item ∈ items, clean item ≠ "all") ∧
      ∀ n, n ∈ S ↔ n ≠ "" ∧ ∃ item ∈ items, clean item = n := by
  have hm : ∀ n, n ∈ (.ofList ((items.map clean).filter (· ≠ "")) : NameSet) ↔
      n ≠ "" ∧ ∃ item ∈ items, clean item = n := by
    intro n
    rw [NameSet.mem_ofList, List.mem_filter, List.mem_map, decide_eq_true_eq, and_comm]
  have ha : "all" ∈ items.map clean ↔ ¬ ∀ item ∈ items, clean item ≠ "all" := by
    rw [List.mem_map]
    push Not
    rfl
  rw [ofNames]
  split
  · next h => exact iff_of_false nofun fun hS => ha.mp h hS.1
  · next h =>
    rw [named.injEq, and_iff_right (not_not.mp (mt ha.mpr h))]
    constructor
    · rintro rfl
      exact hm
    · intro hS
      exact NameSet.ext fun n => (hm n).trans (hS n).symm

theorem exists_ofNames_eq_named (h : ∀ item ∈ items, clean item ≠ "all") :
    ∃ S, ofNames items = named S := by
  cases hs : ofNames items with
  | all =>
    obtain ⟨item, hi, ha⟩ := ofNames_eq_all_iff.mp hs
    exact absurd ha (h item hi)
  | named S => exact ⟨S, rfl⟩

theorem ofNames_congr (h : ∀ item, item ∈ items' ↔ item ∈ items) :
    ofNames items' = ofNames items := by
  cases hs : ofNames items with
  | all =>
    rw [ofNames_eq_all_iff] at hs ⊢
    simpa only [h] using hs
  | named S =>
    rw [ofNames_eq_named_iff] at hs ⊢
    simpa only [h] using hs

theorem ofNames_toList (h : ofNames items = named S) : ofNames S.toList = named S := by
  obtain ⟨ha, hS⟩ := ofNames_eq_named_iff.mp h
  have hc : ∀ n ∈ S, clean n = n := by
    intro n hn
    obtain ⟨-, item, -, rfl⟩ := (hS n).mp hn
    exact clean_clean item
  rw [ofNames_eq_named_iff]
  constructor
  · intro n hn
    obtain ⟨-, item, hi, hin⟩ := (hS n).mp hn
    rw [hc n hn, ← hin]
    exact ha item hi
  · intro n
    constructor
    · intro hn
      exact ⟨((hS n).mp hn).1, n, hn, hc n hn⟩
    · rintro ⟨-, m, hm, rfl⟩
      rw [hc m hm]
      exact hm

/-- An empty list is written as an empty text, which has one empty item. -/
theorem ofText_intercalate (h : ∀ item ∈ items, ',' ∉ item.toList) :
    ofText (",".intercalate items) = ofNames items := by
  by_cases hn : items = []
  · subst hn
    decide
  · rw [ofText, splitOn_intercalate hn h]

end ExtensionSelection

open ExtensionSelection

namespace Config

variable {items : List String}

theorem request_list (c : Config) (o : Overrides) (h : ∀ item ∈ items, ',' ∉ item.toList) :
    { c with extensions := some (.list items) }.request { o with extensions := none } =
      c.request { o with extensions := some (",".intercalate items) } := by
  simp only [request, Option.map_none, Option.none_or, Option.map_some, Option.some_or,
    ExtensionList.selection, ofText_intercalate h]

theorem request_text (c : Config) (o : Overrides) (raw : String) :
    { c with extensions := some (.text raw) }.request { o with extensions := none } =
      c.request { o with extensions := some raw } := rfl

end Config

namespace ExtensionSelection

/-- What a list of extensions stands for, and that all ways to write it mean the same. -/
theorem ofNames_exact (items : List String) :
    (ofNames items = all ↔ ∃ item ∈ items, clean item = "all") ∧
    ((∀ item ∈ items, clean item ≠ "all") → ∃ S, ofNames items = named S ∧
      (∀ n, n ∈ S ↔ n ≠ "" ∧ ∃ item ∈ items, clean item = n) ∧ ofNames S.toList = named S) ∧
    (∀ items', (∀ item, item ∈ items' ↔ item ∈ items) → ofNames items' = ofNames items) ∧
    ((∀ item ∈ items, ',' ∉ item.toList) →
      ofText (",".intercalate items) = ofNames items ∧
      ∀ (c : Config) (o : Overrides),
        { c with extensions := some (.list items) }.request { o with extensions := none } =
          c.request { o with extensions := some (",".intercalate items) } ∧
        { c with extensions := some (.text (",".intercalate items)) }.request
            { o with extensions := none } =
          c.request { o with extensions := some (",".intercalate items) }) := by
  refine ⟨ofNames_eq_all_iff, ?named, fun items' h => ofNames_congr h, ?spelled⟩
  case named =>
    intro h
    obtain ⟨S, hS⟩ := exists_ofNames_eq_named h
    exact ⟨S, hS, (ofNames_eq_named_iff.mp hS).2, ofNames_toList hS⟩
  case spelled =>
    intro h
    exact ⟨ofText_intercalate h, fun c o => ⟨Config.request_list c o h, Config.request_text c o _⟩⟩

def quotedItems : List String := ["'VK_EXT_drain'", "", " \"VK_EXT_drain \"", "VK_KHR_wait"]

theorem ofNames_quotedItems :
    (∀ item ∈ quotedItems, clean item ≠ "all") ∧ (∀ item ∈ quotedItems, ',' ∉ item.toList) ∧
    ofNames quotedItems = named (.ofList ["VK_EXT_drain", "VK_KHR_wait"]) ∧
    ofNames quotedItems.reverse = named (.ofList ["VK_EXT_drain", "VK_KHR_wait"]) ∧
    ofNames ["VK_EXT_drain", "VK_KHR_wait"] = named (.ofList ["VK_EXT_drain", "VK_KHR_wait"]) ∧
    ofText (",".intercalate quotedItems) = named (.ofList ["VK_EXT_drain", "VK_KHR_wait"]) := by
  have ha : ∀ item ∈ quotedItems, clean item ≠ "all" := by decide
  have hc : ∀ item ∈ quotedItems, ',' ∉ item.toList := by decide
  have hs : ofNames quotedItems = named (.ofList ["VK_EXT_drain", "VK_KHR_wait"]) := by decide
  obtain ⟨-, hnamed, hset, hspelled⟩ := ofNames_exact quotedItems
  obtain ⟨S, hS, -, hback⟩ := hnamed ha
  obtain rfl := named.inj (hS.symm.trans hs)
  exact ⟨ha, hc, hs, (hset _ fun item => List.mem_reverse).trans hs, hback,
    (hspelled hc).1.trans hs⟩

end ExtensionSelection

end LoadTiers
