import LoadTiers.Proofs.Json.Printed
import LoadTiers.Proofs.Timestamp
import LoadTiers.Proofs.Version
import LoadTiers.Resolution.Json

/-! # Reading back resolutions

The JSON form of a resolution, of each of its parts and of the facts about it is read as the value
that it was written for. It holds whole numbers only, so that its text can be read back as well.
-/

namespace LoadTiers

namespace Json

variable {α β : Type}

theorem mapM_map_some {f : β → Option α} {g : α → β} (h : ∀ x, f (g x) = some x) (l : List α) :
    (l.map g).mapM f = some l := by
  induction l with
  | nil => rfl
  | cons x l ih => simp [h x, ih]

theorem list?_arr_map {f : Json → Option α} {g : α → Json} (h : ∀ x, f (g x) = some x)
    (l : List α) : (arr (l.map g)).list? f = some l := mapM_map_some h l

@[simp] theorem strings?_strings (l : List String) : (strings l).strings? = some l :=
  list?_arr_map (g := str) (fun _ => rfl) l

@[simp] theorem str?_str (s : String) : (str s).str? = some s := rfl

@[simp] theorem bool?_bool (b : Bool) : (bool b).bool? = some b := rfl

@[simp] theorem word?_int (n : UInt64) : (int n.toNat).word? = some n := by
  have h : n.toNat < UInt64.size := n.toNat_lt_size
  simp [word?, h]

@[simp] theorem record?_obj (names : List String) (least : Nat) (ms : List (String × Json)) :
    (obj ms).record? names least = some fun n => ms.lookup n := rfl

@[simp] theorem option?_optional (o : Option String) : (optional o).option? str? = some o := by
  cases o <;> rfl

theorem option?_str {f : Json → Option α} (s : String) :
    (str s).option? f = (f (str s)).map some := rfl

@[simp] theorem fieldD_some (j : Json) (f : Json → Option α) (d : α) :
    fieldD (some j) f d = f j := rfl

@[simp] theorem fieldD_none (f : Json → Option α) (d : α) : fieldD none f d = some d := rfl

/-- One step of reading a record: the member of a field is found and decoded. -/
theorem bind_member {member : Option Json} {j : Json} {f : Json → Option α} {x : α}
    {next : α → Option β} {y : β} (hj : member = some j) (hx : f j = some x)
    (hy : next x = some y) : (member.bind fun j => (f j).bind next) = some y := by
  rw [hj, Option.bind_some, hx, Option.bind_some, hy]

end Json

open Json

@[simp] theorem Version.ofJson?_toJson (v : Version) : ofJson? v.toJson = some v := by
  rw [ofJson?, toJson, str?_str, Option.bind_some, ofText?_toString]

@[simp] theorem Tier.ofJson?_toJson (t : Tier) : ofJson? t.toJson = some t := by
  cases t <;> decide +kernel

@[simp] theorem Roster.ofList_toList {α : Type} {name : α → String} (r : Roster name) :
    ofList r.toList = r := toList_injective (toList_ofList r.sorted)

theorem TierPolicy.ofJson?_toJson (p : TierPolicy) : ofJson? p.toJson = some p := by
  unfold ofJson? toJson
  rw [record?_obj, Option.bind_eq_bind, Option.bind_some]
  refine Option.bind_eq_some_iff.mpr ⟨p.globalEntryPoints, ?_, ?_⟩
  · change (strings p.globalEntryPoints.toList).strings?.map Roster.ofList = _
    rw [strings?_strings, Option.map_some, Roster.ofList_toList]
  refine Option.bind_eq_some_iff.mpr ⟨_, str?_str _, ?_⟩
  refine Option.bind_eq_some_iff.mpr ⟨_, str?_str _, ?_⟩
  exact Option.bind_eq_some_iff.mpr ⟨_, str?_str _, rfl⟩

theorem FeatureKind.ofJson?_toJson (k : FeatureKind) : ofJson? k.toJson = some k := by
  cases k with
  | apiVersion => rfl
  | extension deprecated successor => cases successor <;> rfl

@[simp] theorem TierBuckets.ofJson?_toJson (b : TierBuckets) : ofJson? b.toJson = some b := by
  unfold ofJson? toJson
  rw [record?_obj, Option.bind_eq_bind, Option.bind_some]
  refine bind_member rfl (strings?_strings _) ?_
  refine bind_member rfl (strings?_strings _) ?_
  exact bind_member rfl (strings?_strings _) rfl

theorem FeatureSummary.ofJson?_toJson (s : FeatureSummary) : ofJson? s.toJson = some s := by
  unfold ofJson? toJson
  rw [record?_obj, Option.bind_eq_bind, Option.bind_some]
  refine bind_member rfl (str?_str _) ?_
  refine bind_member rfl (Version.ofJson?_toJson _) ?_
  refine Option.bind_eq_some_iff.mpr ⟨_, bool?_bool _, ?_⟩
  refine Option.bind_eq_some_iff.mpr ⟨s.supersededBy, ?_, rfl⟩
  cases s.supersededBy <;> rfl

@[simp] theorem FeatureTable.ofJson?_toJson (t : FeatureTable) : ofJson? t.toJson = some t := by
  unfold ofJson? toJson
  rw [record?_obj, Option.bind_eq_bind, Option.bind_some]
  refine bind_member rfl (list?_arr_map FeatureSummary.ofJson?_toJson _) ?_
  exact bind_member rfl (list?_arr_map FeatureSummary.ofJson?_toJson _) rfl

@[simp] theorem AliasTable.ofJson?_toJson (t : AliasTable) : ofJson? t.toJson = some t := by
  unfold ofJson? toJson
  refine Option.bind_eq_some_iff.mpr ⟨t.toList, mapM_map_some (fun g => ?_) _, ?_⟩
  · simp
  · simp

@[simp] theorem Resolution.ofJson?_toJson (r : Resolution) : ofJson? r.toJson = some r := by
  unfold ofJson? toJson
  rw [record?_obj, Option.bind_eq_bind, Option.bind_some]
  refine bind_member rfl (str?_str _) ?_
  refine bind_member rfl (str?_str _) ?_
  refine bind_member rfl (TierBuckets.ofJson?_toJson _) ?_
  refine bind_member rfl (TierBuckets.ofJson?_toJson _) ?_
  refine bind_member rfl (AliasTable.ofJson?_toJson _) ?_
  refine bind_member rfl (FeatureTable.ofJson?_toJson _) ?_
  refine bind_member rfl (FeatureTable.ofJson?_toJson _) ?_
  refine bind_member rfl (strings?_strings _) ?_
  exact bind_member rfl (bool?_bool _) rfl

theorem Facts.ofJson?_toJson (f : Facts) : ofJson? f.toJson = some f := by
  unfold ofJson? toJson
  rw [record?_obj, Option.bind_eq_bind, Option.bind_some]
  refine bind_member rfl (word?_int _) ?_
  refine Option.bind_eq_some_iff.mpr ⟨_, option?_optional _, ?_⟩
  refine Option.bind_eq_some_iff.mpr ⟨_, option?_optional _, ?_⟩
  refine bind_member rfl (bool?_bool _) ?_
  refine Option.bind_eq_some_iff.mpr ⟨f.generatedAt, ?_, rfl⟩
  cases f.generatedAt with
  | none => rfl
  | some t =>
    simp only [Option.map_some, optionalMember, List.cons_append, List.nil_append, List.lookup_cons,
      String.reduceBEq, BEq.rfl, fieldD_some, option?_str, str?_str, Option.bind_some,
      Timestamp.ofText?_text]

@[simp] theorem TierBuckets.isWhole_toJson (b : TierBuckets) : b.toJson.isWhole := by
  simp [toJson, isWhole, haveWhole]

@[simp] theorem FeatureSummary.isWhole_toJson (s : FeatureSummary) : s.toJson.isWhole := by
  simp [toJson, isWhole, haveWhole, Version.toJson]

@[simp] theorem FeatureTable.isWhole_toJson (t : FeatureTable) : t.toJson.isWhole := by
  simp [toJson, isWhole, haveWhole, areWhole_iff]

@[simp] theorem AliasTable.isWhole_toJson (t : AliasTable) : (AliasTable.toJson t).isWhole := by
  simp [toJson, isWhole, haveWhole_iff]

@[simp] theorem Resolution.isWhole_toJson (r : Resolution) : r.toJson.isWhole := by
  simp [toJson, isWhole, haveWhole]

@[simp] theorem Facts.isWhole_toJson (f : Facts) : f.toJson.isWhole := by
  simp [toJson, isWhole, haveWhole]

end LoadTiers
