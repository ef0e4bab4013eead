import LoadTiers.Proofs.ChainOutcome
import LoadTiers.Proofs.Coherence

/-! # Growth of a catalog

Later declarations take nothing back. The chains of entered names do not leave the declarations
that resolved them, so declarations that are added can only bring new entries, or be refused for a
name of their own.
-/

namespace LoadTiers

variable {ds ds' : List Declaration} {types : TypeGraph} {policy : TierPolicy} {n m : String}
  {k depth : Nat} {d : Declaration} {e : EntryPoint} {err : RegistryError}
  {catalog catalog' : Catalog}

/-- Why a name has no entry: its chain does not resolve, or the policy finds no tier for the
canonical entry point at the end. -/
inductive EntryError (ds : List Declaration) (types : TypeGraph) (policy : TierPolicy)
    (n : String) : RegistryError → Prop

  | chain {err : RegistryError} (h : ChainError ds n err) : EntryError ds types policy n err

  | tier {c : String} {owner : Option String} {err : RegistryError}
      (h : ChainEnds ds maxAliasDepth n (.canonical c owner))
      (ht : policy.classify types c owner = .error err) : EntryError ds types policy n err

theorem definition?_append (ds ds' : List Declaration) (n : String) :
    definition? (ds ++ ds') n = (definition? ds n).or (definition? ds' n) := by
  simp only [definition?, List.find?_append, Option.map_or]

theorem definition?_append_of_some {x : Definition} (h : definition? ds n = some x) :
    definition? (ds ++ ds') n = some x := by
  rw [definition?_append, h, Option.some_or]

theorem AliasChain.append_right (h : AliasChain ds k n m) (ds' : List Declaration) :
    AliasChain (ds ++ ds') k n m := by
  induction h with
  | nil n => exact .nil n
  | cons ht _ ih => exact .cons (definition?_append_of_some ht) ih

/-- Where a chain ends at a canonical declaration, later declarations do not lead it on. -/
theorem ChainEnds.append_right {c : String} {owner : Option String}
    (h : ChainEnds ds depth n (.canonical c owner)) (ds' : List Declaration) :
    ChainEnds (ds ++ ds') depth n (.canonical c owner) := by
  cases h with
  | canonical hk hchain hc =>
    exact .canonical hk (hchain.append_right ds') (definition?_append_of_some hc)

namespace Catalog

theorem enter_append_right (h : enter (Declarations.ofList ds) types policy d = .ok e)
    (ds' : List Declaration) :
    enter (Declarations.ofList (ds ++ ds')) types policy d = .ok e := by
  rw [enter_eq_ok_iff] at *
  obtain ⟨he, hends, ht⟩ := h
  exact ⟨he, hends.append_right ds', ht⟩

theorem enter_eq_error_iff_entryError :
    enter (Declarations.ofList ds) types policy d = .error err ↔
      EntryError ds types policy d.name err := by
  have hends := chainEnds_follow ds maxAliasDepth d.name
  unfold enter
  generalize (Declarations.ofList ds).follow maxAliasDepth d.name = x at hends ⊢
  constructor
  · intro h
    cases hends with
    | canonical hk hchain hc =>
      rw [bind_eq_error_iff] at h
      rcases h with ht | ⟨_, -, h⟩
      · exact .tier (.canonical hk hchain hc) ht
      · cases h
    | missing hk hchain hm =>
      cases h
      exact .chain (.missing hk hchain hm)
    | unbounded hchain =>
      cases h
      exact .chain (.unbounded hchain)
  · intro h
    cases h with
    | chain h =>
      obtain ⟨y, hy, ho⟩ := chainError_iff.mp h
      obtain rfl := hends.unique hy
      cases hends with
      | canonical => cases ho
      | missing =>
        cases ho
        rfl
      | unbounded =>
        cases ho
        rfl
    | tier h ht =>
      obtain rfl := hends.unique h
      exact bind_eq_error_iff.mpr (.inl ht)

/-- Each entry is kept as it is, and each new name has one entry, with its first declaration. -/
structure Growth (ds' : List Declaration) (catalog catalog' : Catalog) : Prop where
  retained : ∀ n e, catalog.get? n = some e → catalog'.get? n = some e
  introduced : ∀ n, ¬ catalog.contains n →
    (catalog'.toList.filter fun e => e.name == n).map (·.toDeclaration) =
      (ds'.find? fun d => d.name == n).toList

theorem find?_eq_none_of_build (h : build ds types policy = .ok catalog)
    (hn : ¬ catalog.contains n) : ds.find? (fun d => d.name == n) = none := by
  rw [contains_of_build h] at hn
  simpa using hn

theorem growth_of_build (h : build ds types policy = .ok catalog)
    (h' : build (ds ++ ds') types policy = .ok catalog') : catalog.Growth ds' catalog' := by
  constructor
  · intro n e he
    obtain ⟨d, hd, hd'⟩ := (get?_of_build h).mp he
    refine (get?_of_build h').mpr ⟨d, ?_, enter_append_right hd' ds'⟩
    rw [List.find?_append, hd, Option.some_or]
  · intro n hn
    rw [filter_name_of_build h', List.find?_append, find?_eq_none_of_build h hn, Option.none_or]

theorem new_of_enter_eq_error (h : build ds types policy = .ok catalog)
    (hd : d ∈ (Declarations.ofList (ds ++ ds')).toList)
    (he : enter (Declarations.ofList (ds ++ ds')) types policy d = .error err) :
    (∃ d' ∈ ds', d'.name = d.name) ∧ ∀ d' ∈ ds, d'.name ≠ d.name := by
  have hnew : ∀ d' ∈ ds, d'.name ≠ d.name := by
    intro d' hd' hn
    obtain ⟨e, hget⟩ := Option.isSome_iff_exists.mp ((contains_of_build h).mpr ⟨d', hd', hn⟩)
    obtain ⟨d₀, hd₀, hok⟩ := (get?_of_build h).mp hget
    -- the first declaration of the name is the old one, and that can still be entered
    have hfind := Declarations.mem_ofList.mp hd
    rw [List.find?_append, hd₀, Option.some_or, Option.some.injEq] at hfind
    subst hfind
    rw [enter_append_right hok ds'] at he
    cases he
  obtain ⟨d', hd', hn⟩ := Declarations.mem_names_ofList.mp (List.mem_map_of_mem hd)
  rcases List.mem_append.mp hd' with hold | hd'
  · exact absurd hn (hnew d' hold)
  · exact ⟨⟨d', hd', hn⟩, hnew⟩

/-- Declarations that come after others leave the entries of those as they are and add entries for
the names that are new, unless the least of these that has no entry refuses them. -/
theorem build_append (ds ds' : List Declaration) (types : TypeGraph) (policy : TierPolicy)
    (catalog : Catalog) (h : build ds types policy = .ok catalog) :
    (∃ catalog', build (ds ++ ds') types policy = .ok catalog' ∧ catalog.Growth ds' catalog') ∨
      ∃ n err, IsFirst (· < ·) (fun n => ((∃ d ∈ ds', d.name = n) ∧ ∀ d ∈ ds, d.name ≠ n) ∧
          ∃ err, EntryError (ds ++ ds') types policy n err) n ∧
        EntryError (ds ++ ds') types policy n err ∧
        build (ds ++ ds') types policy = .error err := by
  cases h' : build (ds ++ ds') types policy with
  | ok catalog' => exact .inl ⟨catalog', rfl, growth_of_build h h'⟩
  | error err =>
    obtain ⟨d, ⟨⟨hd, -⟩, hleast⟩, he⟩ := build_eq_error_iff.mp h'
    have herr := enter_eq_error_iff_entryError.mp he
    refine .inr ⟨d.name, err, ⟨⟨new_of_enter_eq_error h hd he, err, herr⟩, ?_⟩, herr, rfl⟩
    rintro n ⟨⟨⟨d', hd', rfl⟩, -⟩, err', herr'⟩
    obtain ⟨d₀, hd₀, hn⟩ := List.mem_map.mp
      (Declarations.mem_names_ofList.mpr ⟨d', List.mem_append_right ds hd', rfl⟩)
    rw [← hn] at herr' ⊢
    rcases hleast d₀ ⟨hd₀, err', enter_eq_error_iff_entryError.mpr herr'⟩ with rfl | hlt
    · exact .inl rfl
    · exact .inr hlt

def laterCommands : List Declaration :=
  [⟨"vkGetBufferDeviceAddressKHR", .aliasOf "vkLost"⟩,
    ⟨"vkGetAddress", .aliasOf "vkGetBufferDeviceAddressEXT"⟩]

def strayCommands : List Declaration :=
  [⟨"vkGetBufferDeviceAddress", .aliasOf "vkLost"⟩, ⟨"vkStray", .aliasOf "vkLost"⟩]

/-- The address commands keep their entries beside a new one, and it is not for them that the stray
alias is refused. -/
theorem build_laterCommands : build addressCommands ∅ .vulkan = .ok addressCatalog ∧
    (∃ catalog', build (addressCommands ++ laterCommands) ∅ .vulkan = .ok catalog' ∧
      addressCatalog.Growth laterCommands catalog') ∧
    ∃ n err, build (addressCommands ++ strayCommands) ∅ .vulkan = .error err ∧
      EntryError (addressCommands ++ strayCommands) ∅ .vulkan n err ∧
      ∀ d ∈ addressCommands, d.name ≠ n := by
  have h : build addressCommands ∅ .vulkan = .ok addressCatalog := by decide +kernel
  have hok : (build (addressCommands ++ laterCommands) ∅ .vulkan).isOk := by decide +kernel
  have hstray : (build (addressCommands ++ strayCommands) ∅ .vulkan).isOk = false := by
    decide +kernel
  refine ⟨h, ?later, ?stray⟩
  case later =>
    rcases build_append _ laterCommands _ _ _ h with hg | ⟨n, err, -, -, he⟩
    · exact hg
    · rw [he] at hok
      cases hok
  case stray =>
    rcases build_append _ strayCommands _ _ _ h with ⟨catalog', hb, -⟩ | ⟨n, err, hn, herr, he⟩
    · rw [hb] at hstray
      cases hstray
    · exact ⟨n, err, he, herr, hn.1.1.2⟩

end Catalog

end LoadTiers
