import CCattler.Lang.FactKeys
import CCattler.Lang.Apply
import CCattler.Security.NetworkPolicy

/-! # From network blocks to decisions

A rule is lost if a later one has its name and another value, or if a colon in a service
name breaks its value apart.
-/

namespace CCattler.Security

open Go Store CCattler.Types Concurrency List
open NetworkPolicyEngine (evaluate)

/-! ## The rules as written -/

/-- The rules of all blocks, each with its index in its block. -/
def indexedRules (file : Lang.File) : List (Lang.NetworkRuleDecl × Nat) :=
  file.networks.flatMap (fun block => block.rules.zipIdx)

/-- The facts of the rules, in the order in which they are written. -/
def networkEntries (file : Lang.File) : List (Str × Str) :=
  (indexedRules file).map (fun indexed =>
    (keyNetworkPolicyRule (indexed.1.ruleName indexed.2), indexed.1.ruleValue))

/-- A rule as the engine would have it, if nothing was lost. -/
def asWritten (rule : Lang.NetworkRuleDecl) : NetworkPolicyRule :=
  ⟨[], rule.source, rule.target, rule.port, rule.action⟩

/-- The decision of the rules of all blocks as written. -/
def decisionAsWritten (file : Lang.File) (sourceService targetService : Str) (port : Int) :
    PolicyAction :=
  denyOverrides (fun indexed => (asWritten indexed.1).action)
    (fun indexed => matchesRule (asWritten indexed.1) sourceService targetService port)
    (indexedRules file)

/-- No service name of the rule has a colon. -/
def ColonFree (rule : Lang.NetworkRuleDecl) : Prop :=
  Str.colon ∉ rule.source ∧ Str.colon ∉ rule.target

/-- The rule or one of the same value is the last of its name, and can be read back. -/
def Kept (file : Lang.File) (indexed : Lang.NetworkRuleDecl × Nat) : Prop :=
  ColonFree indexed.1 ∧ FactTable.lastValue (networkEntries file)
      (keyNetworkPolicyRule (indexed.1.ruleName indexed.2)) = some indexed.1.ruleValue

/-- A rule with the action applies to the traffic. -/
def Applies (rules : Lang.NetworkRuleDecl × Nat → Prop) (action : PolicyAction)
    (sourceService targetService : Str) (port : Int) : Prop :=
  ∃ indexed, rules indexed ∧ indexed.1.action = action ∧
    matchesRule (asWritten indexed.1) sourceService targetService port = true

/-- No lost rule matters: a kept rule or none decides the traffic it applies to. -/
structure LossesCovered (file : Lang.File) : Prop where
  deny : ∀ sourceService targetService port,
    Applies (fun indexed => indexed ∈ indexedRules file ∧ ¬Kept file indexed) policyDeny
      sourceService targetService port →
    Applies (fun indexed => indexed ∈ indexedRules file ∧ Kept file indexed) policyDeny
      sourceService targetService port ∨
    ¬Applies (fun indexed => indexed ∈ indexedRules file ∧ Kept file indexed) policyAllow
      sourceService targetService port
  allow : ∀ sourceService targetService port,
    Applies (fun indexed => indexed ∈ indexedRules file ∧ ¬Kept file indexed) policyAllow
      sourceService targetService port →
    Applies (fun indexed => indexed ∈ indexedRules file ∧ Kept file indexed) policyAllow
      sourceService targetService port ∨
    Applies (fun indexed => indexed ∈ indexedRules file) policyDeny sourceService targetService port

/-- Ports are machine integers, as the parser has them. -/
def PortsFit (file : Lang.File) : Prop :=
  ∀ indexed ∈ indexedRules file, minInt64 ≤ indexed.1.port ∧ indexed.1.port ≤ maxInt64

/-! ## The facts of the rules -/

section Stored

variable {sourceLines : List Str} {surroundings : Lang.Surroundings} {file : Lang.File}
  {facts : List Lang.Fact}

theorem entries_networkFacts
    (h : Lang.compileEach (Lang.compileNetworkDeclaration sourceLines) file.networks = .ok facts) :
    Lang.entries facts = networkEntries file := by
  obtain ⟨hall, rfl⟩ := Lang.compileEach_eq_ok_iff.mp h
  rw [Lang.entries, map_flatMap, networkEntries, indexedRules, map_flatMap]
  apply flatMap_congr
  intro block hblock
  have hown := Lang.networkRuleFacts_ok (hall block hblock)
  rw [hown, map_map]
  rfl

variable (h : Lang.compileWithSource sourceLines surroundings file = .ok facts) {key : Str}
  (hkey : scanNetworkPolicies <+: key)
include h hkey

theorem lastValue_network : FactTable.lastValue (Lang.entries facts) key =
      FactTable.lastValue (networkEntries file) key := by
  rw [Lang.compileWithSource_eq, Lang.File.declarations, Lang.compileEach_append] at h
  generalize hfront : file.tenants.map Lang.Declaration.tenant ++ _ ++ _ ++ _ ++ _ ++ _ ++ _ ++ _ ++
    _ ++ _ ++ _ ++ _ ++ _ ++ _ ++ file.policies.map Lang.Declaration.policy = front at h
  cases hearlier : Lang.compileEach (Lang.Declaration.compile sourceLines surroundings file)
      front with
  | error error =>
    rw [hearlier] at h
    cases h
  | ok earlier =>
    cases hlater : Lang.compileEach (Lang.Declaration.compile sourceLines surroundings file)
        (file.networks.map .network) with
    | error error =>
      rw [hearlier, hlater] at h
      cases h
    | ok later =>
      rw [hearlier, hlater] at h
      rw [← Except.ok.inj h]
      rw [Lang.compileEach_map] at hlater
      have hnone : FactTable.lastValue (Lang.entries earlier) key = none := by
        rw [FactTable.lastValue_eq_none_iff]
        rintro ⟨_, _⟩ hentry rfl
        obtain ⟨decl, hdecl, _, hcompile, hmem⟩ :=
          (Lang.mem_compileEach hearlier).mp (Lang.mem_entries.mp hentry)
        obtain ⟨_, hscan, hstarts⟩ := Lang.Declaration.factsBelow hcompile _ hmem
        have hother : scanNetworkPolicies ∈ (Lang.Declaration.network {}).scans :=
          mem_cons_self
        have hkind := Lang.Declaration.kind_eq_of_scans hscan hother hstarts hkey
        rw [← hfront] at hdecl
        cases decl with
        | network decl => simp at hdecl
        | _ => simp [Lang.Declaration.kind] at hkind
      rw [Lang.entries, map_append, FactTable.lastValue_append, ← Lang.entries,
        ← Lang.entries, hnone, Option.or_none, entries_networkFacts hlater]

/-- After an apply to an empty store, the network keys hold what the blocks say. -/
theorem value_network_applied :
    ((Lang.applyFacts file facts).eval ValidTable.perform ValidTable.new).2.value key =
      FactTable.lastValue (networkEntries file) key := by
  rw [Lang.value_applyFacts_of_kept, ValidTable.value_putAll, lastValue_network h hkey]
  · exact Option.or_none
  · intro _ hremoved heq
    obtain ⟨routeDecl, -, hfilter⟩ := mem_flatMap.mp hremoved
    have hgate := (FactTable.Valid.mem_scanned (ValidTable.valid _)).mp (mem_of_mem_filter hfilter)
    have hgates : scanDesiredRoutes <+: Lang.gatePrefix routeDecl :=
      ⟨routeDecl.name ++ lit "/", (append_assoc _ _ _).symm⟩
    have hroute : scanDesiredRoutes <+: key := heq ▸ hgates.trans hgate.2.2
    rcases prefix_or_prefix_of_prefix hroute hkey with hstarts | hstarts <;>
      revert hstarts <;> decide

end Stored

/-! ## Reading a rule back -/

theorem ruleValue_eq (rule : Lang.NetworkRuleDecl) :
    rule.ruleValue = rule.source ++ Str.colon :: (rule.target ++ Str.colon ::
      (itoa rule.port ++ Str.colon :: rule.action)) := by
  have hcolon : lit ":" = [Str.colon] := rfl
  simp [Lang.NetworkRuleDecl.ruleValue, hcolon]

theorem colon_notMem_itoa (n : Int) : Str.colon ∉ itoa n := notMem_itoa (by decide) (by decide) n

variable {rule : Lang.NetworkRuleDecl}

theorem parse_ruleValue (hfree : ColonFree rule)
    (hport : minInt64 ≤ rule.port ∧ rule.port ≤ maxInt64) (name : Str) :
    parseNetworkPolicyRule name rule.ruleValue =
      some ⟨name, rule.source, rule.target, rule.port, rule.action⟩ := by
  have hsplit := Str.splitN_four_iff.mpr
    ⟨ruleValue_eq rule, hfree.1, hfree.2, colon_notMem_itoa rule.port⟩
  have hparse := parseInt_itoa hport.1 hport.2
  unfold parseNetworkPolicyRule
  rw [hsplit]
  dsimp only
  split
  next hempty =>
    rw [hempty] at hparse
    exact absurd (congrArg Prod.snd hparse) (by simp [parseInt, splitSign, parseUint])
  next => rw [hparse]

/-- With a colon in a name, a rule that is read back has a colon in its action. -/
theorem colon_mem_action {name : Str} {read : NetworkPolicyRule} (hcolon : ¬ColonFree rule)
    (h : parseNetworkPolicyRule name rule.ruleValue = some read) : Str.colon ∈ read.action := by
  unfold parseNetworkPolicyRule at h
  split at h
  next source target _ action hsplit =>
    have haction : read.action = action := by
      split at h
      · rw [← Option.some.inj h]
      · split at h
        · rw [← Option.some.inj h]
        · cases h
    obtain ⟨hvalue, hsource, htarget, hportText⟩ := Str.splitN_four_iff.mp hsplit
    rw [haction]
    -- The value has at least four colons, and the parts before the action only three.
    have hcount := congrArg (List.count Str.colon) (ruleValue_eq rule ▸ hvalue)
    simp only [count_append, count_cons_self, count_eq_zero_of_not_mem hsource,
      count_eq_zero_of_not_mem htarget, count_eq_zero_of_not_mem hportText] at hcount
    have hnames : 0 < rule.source.count Str.colon + rule.target.count Str.colon := by
      by_contra hzero
      apply hcolon
      exact ⟨count_eq_zero.mp (by omega), count_eq_zero.mp (by omega)⟩
    exact count_pos_iff.mp (by omega)
  next => cases h

/-! ## The decisions -/

variable {action : PolicyAction}

section Decisions

variable {sourceLines : List Str} {surroundings : Lang.Surroundings} {file : Lang.File}
  {facts : List Lang.Fact} {sourceService targetService : Str} {port : Int}

/-- The store after an apply to an empty one. -/
def applied (file : Lang.File) (facts : List Lang.Fact) : ValidTable :=
  ((Lang.applyFacts file facts).eval ValidTable.perform ValidTable.new).2

section

variable (h : Lang.compileWithSource sourceLines surroundings file = .ok facts)
  (hports : PortsFit file)
include h hports

theorem exists_listed_iff (haction : action = policyAllow ∨ action = policyDeny) :
    (∃ rule ∈ NetworkPolicyEngine.listRules
        ((applied file facts).toFactTable.scanned scanNetworkPolicies), rule.action = action ∧
        matchesRule rule sourceService targetService port = true) ↔
      Applies (fun indexed => indexed ∈ indexedRules file ∧ Kept file indexed) action
        sourceService targetService port := by
  have hpairs {name value : Str} :=
    @ValidTable.mem_scanned_pairs (applied file facts) scanNetworkPolicies (by decide) name value
  constructor
  · intro ⟨rule, hlisted, hrule, hmatches⟩
    obtain ⟨fact, hfact, hparse⟩ := mem_filterMap.mp hlisted
    have hvalue := hpairs.mp (mem_map.mpr ⟨fact, hfact, rfl⟩)
    rw [applied, value_network_applied h (prefix_append _ _)] at hvalue
    obtain ⟨⟨decl, index⟩, hdecl, heq⟩ := mem_map.mp (FactTable.mem_of_lastValue hvalue)
    obtain ⟨hkey, htext⟩ := Prod.mk.inj heq
    rw [← htext] at hparse hvalue
    rw [← hkey] at hvalue
    have hfree : ColonFree decl := by
      by_contra hcolon
      have hmem := colon_mem_action hcolon hparse
      rw [hrule] at hmem
      rcases haction with rfl | rfl <;> revert hmem <;> decide
    rw [parse_ruleValue hfree (hports _ hdecl)] at hparse
    obtain rfl := Option.some.inj hparse
    exact ⟨(decl, index), ⟨hdecl, hfree, hvalue⟩, hrule, hmatches⟩
  · intro ⟨⟨decl, index⟩, ⟨hdecl, hfree, hlast⟩, hrule, hmatches⟩
    have hvalue : (applied file facts).value (keyNetworkPolicyRule (decl.ruleName index)) =
        some decl.ruleValue := by
      have hbelow : scanNetworkPolicies <+: keyNetworkPolicyRule (decl.ruleName index) :=
        prefix_append _ _
      rw [applied, value_network_applied h hbelow]
      exact hlast
    obtain ⟨fact, hfact, heq⟩ := mem_map.mp (hpairs.mpr hvalue)
    obtain ⟨hname, htext⟩ := Prod.mk.inj heq
    refine ⟨⟨decl.ruleName index, decl.source, decl.target, decl.port, decl.action⟩,
      mem_filterMap.mpr ⟨fact, hfact, ?_⟩, hrule, hmatches⟩
    rw [hname, htext]
    exact parse_ruleValue hfree (hports _ hdecl) _

/-- The decision after an apply, by the rules kept. -/
theorem evaluate_applied :
    evaluate (applied file facts).toFactTable sourceService targetService port = policyAllow ↔
      ¬Applies (fun indexed => indexed ∈ indexedRules file ∧ Kept file indexed) policyDeny
          sourceService targetService port ∧
        Applies (fun indexed => indexed ∈ indexedRules file ∧ Kept file indexed) policyAllow
          sourceService targetService port := by
  rw [evaluate, denyOverrides_eq_allow_iff,
    exists_listed_iff h hports (Or.inr rfl), exists_listed_iff h hports (Or.inl rfl)]

end

theorem decisionAsWritten_iff :
    decisionAsWritten file sourceService targetService port = policyAllow ↔
      ¬Applies (fun indexed => indexed ∈ indexedRules file) policyDeny
          sourceService targetService port ∧
        Applies (fun indexed => indexed ∈ indexedRules file) policyAllow
          sourceService targetService port := by
  rw [decisionAsWritten, denyOverrides_eq_allow_iff]
  rfl

/-- A rule applies as a kept or as a lost one. -/
theorem applies_split :
    Applies (fun indexed => indexed ∈ indexedRules file) action sourceService targetService port ↔
      Applies (fun indexed => indexed ∈ indexedRules file ∧ Kept file indexed) action
        sourceService targetService port ∨
      Applies (fun indexed => indexed ∈ indexedRules file ∧ ¬Kept file indexed) action
        sourceService targetService port := by
  constructor
  · intro ⟨indexed, hmem, happlies⟩
    by_cases hkept : Kept file indexed
    · exact Or.inl ⟨indexed, ⟨hmem, hkept⟩, happlies⟩
    · exact Or.inr ⟨indexed, ⟨hmem, hkept⟩, happlies⟩
  · intro h
    rcases h with ⟨indexed, hmem, happlies⟩ | ⟨indexed, hmem, happlies⟩
    · exact ⟨indexed, hmem.1, happlies⟩
    · exact ⟨indexed, hmem.1, happlies⟩

end Decisions

/-- After an apply to an empty store, the engine decides as the rules as written exactly
if no lost rule matters. -/
theorem network_fidelity_iff {sourceLines : List Str} {surroundings : Lang.Surroundings}
    {file : Lang.File} {facts : List Lang.Fact}
    (h : Lang.compileWithSource sourceLines surroundings file = .ok facts)
    (hports : PortsFit file) :
    (∀ sourceService targetService port,
      evaluate (applied file facts).toFactTable sourceService targetService
        port = decisionAsWritten file sourceService targetService port) ↔ LossesCovered file := by
  have hdecisions (sourceService targetService : Str) (port : Int) :
      evaluate (applied file facts).toFactTable sourceService targetService
          port = decisionAsWritten file sourceService targetService port ↔
        (evaluate (applied file facts).toFactTable sourceService targetService port = policyAllow ↔
          decisionAsWritten file sourceService targetService port = policyAllow) :=
    denyOverrides_eq_iff
  simp only [hdecisions, evaluate_applied h hports, decisionAsWritten_iff, applies_split]
  constructor
  · intro hsame
    refine ⟨fun source target port hlost => ?_, fun source target port hlost => ?_⟩
    · have := hsame source target port
      tauto
    · have := hsame source target port
      rw [applies_split]
      tauto
  · intro ⟨hdeny, hallow⟩ source target port
    have hlostDeny := hdeny source target port
    have hlostAllow := hallow source target port
    rw [applies_split] at hlostAllow
    tauto

/-! ## Two blocks -/

/-- A block that denies, and a block that allows one port. -/
def twoBlocks (target : Str) : Lang.File :=
  { networks :=
      [{ rules := [{ action := policyDeny, source := lit "a", target := lit "b" }] },
        { rules := [{ action := policyAllow, source := lit "a", target, port := 80 }] }] }

def twoBlockFacts (target : Str) : List Lang.Fact :=
  (Lang.compile Lang.plainSurroundings (twoBlocks target)).facts

theorem portsFit_twoBlocks (target : Str) : PortsFit (twoBlocks target) := by
  intro _ hindexed
  simp only [indexedRules, twoBlocks, flatMap_cons, zipIdx_cons, zipIdx_nil,
    flatMap_nil, cons_append, nil_append, mem_cons, not_mem_nil,
    or_false] at hindexed
  rcases hindexed with rfl | rfl
  · exact ⟨by decide, by decide⟩
  · exact ⟨show minInt64 ≤ 80 by decide, show 80 ≤ maxInt64 by decide⟩

/-- Blocks whose rules have different names are decided as written. -/
theorem otherTarget_decided_as_written : PortsFit (twoBlocks (lit "c")) ∧
    ∀ sourceService targetService port,
    evaluate (applied (twoBlocks (lit "c")) (twoBlockFacts (lit "c"))).toFactTable
      sourceService targetService port =
        decisionAsWritten (twoBlocks (lit "c")) sourceService targetService port := by
  have hcompile : Lang.compile Lang.plainSurroundings (twoBlocks (lit "c")) =
      .ok (twoBlockFacts (lit "c")) := rfl
  refine ⟨portsFit_twoBlocks _, (network_fidelity_iff hcompile (portsFit_twoBlocks _)).mpr ?_⟩
  -- Nothing is lost.
  have hkept : ∀ indexed ∈ indexedRules (twoBlocks (lit "c")),
      Kept (twoBlocks (lit "c")) indexed := by
    intro indexed hindexed
    simp only [indexedRules, twoBlocks, flatMap_cons, zipIdx_cons, zipIdx_nil,
      flatMap_nil, cons_append, nil_append, mem_cons, not_mem_nil,
      or_false] at hindexed
    rcases hindexed with rfl | rfl
    · exact ⟨⟨by decide, by decide⟩, by decide +kernel⟩
    · exact ⟨⟨by decide, by decide⟩, by decide +kernel⟩
  refine ⟨fun source target port hlost => ?_, fun source target port hlost => ?_⟩
  · obtain ⟨indexed, hmem, -⟩ := hlost
    exact absurd (hkept indexed hmem.1) hmem.2
  · obtain ⟨indexed, hmem, -⟩ := hlost
    exact absurd (hkept indexed hmem.1) hmem.2

/-- The first rules of two blocks have one name, and the denial is overwritten. -/
theorem deny_overwritten_by_later_block :
    Lang.compile Lang.plainSurroundings (twoBlocks (lit "b")) = .ok (twoBlockFacts (lit "b")) ∧
      evaluate (applied (twoBlocks (lit "b")) (twoBlockFacts (lit "b"))).toFactTable
        (lit "a") (lit "b") 80 = policyAllow ∧
      decisionAsWritten (twoBlocks (lit "b")) (lit "a") (lit "b") 80 = policyDeny := by
  refine ⟨rfl, ?_⟩
  decide +kernel

end CCattler.Security
