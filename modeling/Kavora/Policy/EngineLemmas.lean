import Kavora.Policy.Engine

/-!
# What an allowed request is

`evaluate_allowed`: an allowed request has parsed JSON fields, clean strings and an estimate within
the budget of its context.
-/

namespace Kavora.Policy

open Lib

/-- No email address and no blocked term in any of the strings. -/
def Clean (lib : Externals) (blockedTerms strings : List String) : Prop :=
  (∀ value ∈ strings, lib.emailIsMatch value = false) ∧
    ∀ term ∈ blockedTerms, ∀ value ∈ strings, containsTerm lib term value = false

theorem Clean.mono {lib : Externals} {blockedTerms strings strings' : List String}
    (h : Clean lib blockedTerms strings) (hsub : strings' ⊆ strings) :
    Clean lib blockedTerms strings' :=
  ⟨fun v hv => h.1 v (hsub hv), fun t ht v hv => h.2 t ht v (hsub hv)⟩

theorem Value.mem_collectStringsMembers {members : List (String × Value)} {m : String × Value}
    (h : m ∈ members) : m.2.collectStrings ⊆ collectStringsMembers members := by
  induction members with
  | nil => cases h
  | cons m' members ih =>
    rcases List.mem_cons.mp h with rfl | h
    · exact List.subset_append_left _ _
    · exact List.Subset.trans (ih h) (List.subset_append_right _ _)

namespace PolicyEngine

variable {J : Type} {field : JsonField J} {lib : Externals} {self : PolicyEngine}

theorem judge_allow {context : RequestContext} {size : Nat} {request : CanonicalRequest}
    (h : (self.judge lib context size request).decision = .allow) :
    Clean lib self.blockedTerms
        (textValues request.messages request.tools request.generationParameters) ∧
      (context.tokenBudget = 0 ∨ divCeil4 size ≤ context.tokenBudget) ∧
      (self.judge lib context size request).estimatedTokens = divCeil4 size := by
  unfold judge at h ⊢
  dsimp only at h ⊢
  split at h
  · cases h
  rename_i hmail
  rw [if_neg hmail]
  split at h
  · cases h
  rename_i hterms
  split at h
  · cases h
  rename_i hbudget
  rw [if_neg hbudget]
  rw [List.findIdx?_eq_none_iff] at hterms
  refine ⟨⟨?_, ?_⟩, by omega, rfl⟩
  · simpa using hmail
  · simpa using hterms

theorem evaluateValidated_ok {context : RequestContext} {request : ModelRequest J}
    {result : PolicyResult} (h : self.evaluateValidated field lib context request = .ok result) :
    ∃ messages tools generationParameters,
      request.messages.mapM (self.parseMessage field) = .ok messages ∧
      parseBoundedJson field request.toolsJson self.config.maxJsonDepth = .ok tools ∧
      parseBoundedJson field request.generationParametersJson self.config.maxJsonDepth =
        .ok generationParameters ∧
      result = self.judge lib context (requestSize field request)
        { model := request.model, messages, tools, generationParameters } := by
  simp only [evaluateValidated, bind, Except.bind] at h
  split at h
  · cases h
  split at h
  · cases h
  rename_i messages hmessages
  split at h
  · cases h
  rename_i tools htools
  split at h
  · cases h
  rename_i generationParameters hgeneration
  cases h
  exact ⟨messages, tools, generationParameters, hmessages, htools, hgeneration, rfl⟩

/-- An allowed request, with its parsed fields. -/
structure Allowed (field : JsonField J) (lib : Externals) (engine : PolicyEngine)
    (context : RequestContext) (request : ModelRequest J) : Prop where
  size_le : requestSize field request ≤ effectiveMaxRequestBytes engine.config context
  parsed : ∃ messages tools generationParameters,
    request.messages.mapM (engine.parseMessage field) = .ok messages ∧
    parseBoundedJson field request.toolsJson engine.config.maxJsonDepth = .ok tools ∧
    parseBoundedJson field request.generationParametersJson engine.config.maxJsonDepth =
      .ok generationParameters ∧
    Clean lib engine.blockedTerms (textValues messages tools generationParameters)
  estimate : (engine.evaluate field lib
      { context := some context, request := some request }).estimatedTokens =
    divCeil4 (requestSize field request)
  budget : context.tokenBudget = 0 ∨
    divCeil4 (requestSize field request) ≤ context.tokenBudget

/-- A request that is too large is refused before it is evaluated. -/
theorem evaluate_eq (field : JsonField J) (lib : Externals) (self : PolicyEngine)
    (context : RequestContext) (request : ModelRequest J) :
    self.evaluate field lib { context := some context, request := some request } =
      if requestSize field request > effectiveMaxRequestBytes self.config context then
        self.failure .requestTooLarge "request exceeds configured byte limit"
      else match self.evaluateValidated field lib context request with
        | .ok result => result
        | .error reason => self.failure .invalidArgument reason := rfl

theorem evaluate_allowed {context : RequestContext} {request : ModelRequest J}
    (h : (self.evaluate field lib
      { context := some context, request := some request }).decision = .allow) :
    Allowed field lib self context request := by
  have heq := evaluate_eq field lib self context request
  by_cases hsize : requestSize field request > effectiveMaxRequestBytes self.config context
  · rw [heq, if_pos hsize] at h
    cases h
  rw [if_neg hsize] at heq
  cases hok : self.evaluateValidated field lib context request with
  | error reason =>
    rw [heq, hok] at h
    cases h
  | ok result =>
    obtain ⟨messages, tools, generation, hmessages, htools, hgeneration, rfl⟩ :=
      evaluateValidated_ok hok
    rw [hok] at heq
    rw [heq] at h
    obtain ⟨hclean, hbudget, hestimate⟩ := judge_allow h
    exact ⟨by omega, ⟨messages, tools, generation, hmessages, htools, hgeneration, hclean⟩,
      by rw [heq]; exact hestimate, hbudget⟩

end PolicyEngine

end Kavora.Policy
