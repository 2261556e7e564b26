import Mathlib.Data.List.TakeWhile
import Routing.Method

/-!
# Conditions of tokens

The tokens of a condition are read from the left up to the word `any`. What is read there decides
whether the condition is refused, and which methods it allows depends on the set of the tokens
only. So the order of the tokens matters only where `any` stands beside a token that is refused.

* `Method.NamedBy` — a token names a method; `Method.ofToken?_eq_some_iff`
* `MethodCondition.Refused` — a token that no condition may hold
* `MethodCondition.error_iff`, `MethodCondition.allows_of_collect` — the outcome of reading
* `MethodCondition.Listed` — a condition of tokens names some methods, and never `HEAD`
* `MethodCondition.ofTokens_reordered` — the outcome under every order of the tokens
-/

namespace Routing

/-! ## Tokens -/

namespace Method

/-- The token is the method's, up to case and surrounding blanks. -/
def NamedBy (m : Method) (t : Text) : Prop := m.token = t.trimBlank.upper

instance (m : Method) (t : Text) : Decidable (m.NamedBy t) :=
  inferInstanceAs (Decidable (_ = _))

/-- Different methods have different tokens. -/
theorem token_inj {m m' : Method} (h : m.token = m'.token) : m = m' := by
  cases m <;> cases m' <;> revert h <;> decide

theorem NamedBy.unique {m m' : Method} {t : Text} (h : m.NamedBy t) (h' : m'.NamedBy t) : m = m' :=
  token_inj (h.trans h'.symm)

theorem namedBy_of_ofToken? {m : Method} {t : Text} (h : ofToken? t = some m) : m.NamedBy t := by
  rw [ofToken?] at h
  have hfound := List.find?_some h
  exact of_decide_eq_true hfound

/-- The tokens read as a method are those that name it. -/
theorem ofToken?_eq_some_iff {m : Method} {t : Text} : ofToken? t = some m ↔ m.NamedBy t := by
  refine ⟨namedBy_of_ofToken?, fun h => ?_⟩
  cases hfound : ofToken? t with
  | none => exact absurd (decide_eq_true h) (List.find?_eq_none.1 hfound m (mem_all m))
  | some m' => rw [(namedBy_of_ofToken? hfound).unique h]

end Method

namespace MethodCondition

/-- Whether the token is the word that accepts every method, up to case. -/
def isAny (t : Text) : Bool := t.sameLetters anyToken

/-- The token is neither the word `any` nor names a method other than `HEAD`. -/
def Refused (t : Text) : Prop := isAny t = false ∧ ∀ m : Method, m.NamedBy t → m = .head

/-- The tokens that count: those before the first `any`. -/
def counted (tokens : List Text) : List Text := tokens.takeWhile fun t => !isAny t

variable {tokens tokens' : List Text} {found : List Method} {c : MethodCondition} {fault : Fault}

/-- No token counts from `any` on. -/
theorem counted_of_isAny {t : Text} (h : isAny t = true) : counted (t :: tokens) = [] :=
  List.takeWhile_cons_of_neg (by simp [h])

theorem counted_cons {t : Text} (h : ¬ isAny t = true) :
    counted (t :: tokens) = t :: counted tokens :=
  List.takeWhile_cons_of_pos (by simp [h])

theorem counted_of_no_any (h : ¬ ∃ t ∈ tokens, isAny t = true) : counted tokens = tokens := by
  rw [counted, List.takeWhile_eq_self_iff]
  intro t ht
  simpa using fun hany => h ⟨t, ht, hany⟩

/-! ## Reading -/

/-- A reading that fails met a token that is refused. -/
theorem refused_of_collect (h : collect found tokens = .error fault) :
    ∃ t ∈ counted tokens, Refused t := by
  -- by the reading: a token ends it, with or without a fault, or it goes on after a method
  fun_induction collect found tokens with
  | case1 | case2 => cases h
  | case3 found t rest hany hunknown =>
    rw [counted_cons hany]
    refine ⟨t, List.mem_cons_self, Bool.eq_false_iff.2 hany, fun m hm => ?_⟩
    rw [Method.ofToken?_eq_some_iff.2 hm] at hunknown
    cases hunknown
  | case4 found t rest hany hhead =>
    rw [counted_cons hany]
    refine ⟨t, List.mem_cons_self, Bool.eq_false_iff.2 hany, fun m hm => ?_⟩
    exact hm.unique (Method.ofToken?_eq_some_iff.1 hhead)
  | case5 found t rest hany m _ hm ih =>
    obtain ⟨t', ht', hrefused⟩ := ih h
    rw [counted_cons hany]
    exact ⟨t', List.mem_cons_of_mem t ht', hrefused⟩

/-- A reading that succeeds met none. -/
theorem not_refused_of_collect (h : collect found tokens = .ok c) :
    ∀ t ∈ counted tokens, ¬ Refused t := by
  fun_induction collect found tokens with
  | case1 => simp [counted]
  | case2 found t rest hany =>
    rw [counted_of_isAny hany]
    exact fun _ ht => absurd ht List.not_mem_nil
  | case3 | case4 => cases h
  | case5 found t rest hany m hne hm ih =>
    rw [counted_cons hany, List.forall_mem_cons]
    refine ⟨fun hrefused => ?_, ih h⟩
    exact hne (hrefused.2 m (Method.ofToken?_eq_some_iff.1 hm))

/-- The methods noted after one more. -/
theorem mem_noted {m m' : Method} :
    m' ∈ (if m ∈ found then found else found ++ [m]) ↔ m' ∈ found ∨ m' = m := by
  split
  · next hm => exact ⟨.inl, fun h => h.elim id fun h => h ▸ hm⟩
  · simp

/-- What a condition allows is told by the tokens, whatever their order. -/
theorem allows_of_collect (h : collect found tokens = .ok c) (m : Method) :
    c.allows m = true ↔ (∃ t ∈ tokens, isAny t = true) ∨ (found = [] ∧ tokens = []) ∨
      m.effective ∈ found ∨ ∃ t ∈ tokens, m.effective.NamedBy t := by
  fun_induction collect found tokens with
  | case1 found =>
    cases h
    cases found <;> simp [allows]
  | case2 found t rest hany =>
    cases h
    exact iff_of_true rfl (.inl ⟨t, List.mem_cons_self, hany⟩)
  | case3 | case4 => cases h
  | case5 found t rest hany m' _ hm' ih =>
    -- the token names this method and no other
    have hnamed (m : Method) : m.NamedBy t ↔ m = m' := by
      have hm' := Method.ofToken?_eq_some_iff.1 hm'
      exact ⟨fun h => h.unique hm', fun h => h ▸ hm'⟩
    have hne : (if m' ∈ found then found else found ++ [m']) ≠ [] :=
      List.ne_nil_of_mem (mem_noted.2 (.inr rfl))
    have hany : ¬ isAny t = true := hany
    rw [ih h, mem_noted]
    simp only [hne, List.mem_cons, exists_eq_or_imp, hany, hnamed, reduceCtorEq, and_false,
      false_and, false_or, or_assoc]

/-- Reading fails exactly where a token before the first `any` is refused. -/
theorem error_iff :
    (∃ fault, ofTokens tokens = .error fault) ↔ ∃ t ∈ counted tokens, Refused t := by
  constructor
  · rintro ⟨fault, h⟩
    exact refused_of_collect h
  · rintro ⟨t, ht, hrefused⟩
    cases h : ofTokens tokens with
    | error fault => exact ⟨fault, rfl⟩
    | ok c => exact absurd hrefused (not_refused_of_collect h t ht)

/-! ## The methods of a condition -/

/-- A condition that names methods names at least one, and not `HEAD`. -/
def Listed (c : MethodCondition) : Prop :=
  ∀ methods, c = .only methods → methods ≠ [] ∧ .head ∉ methods

/-- The methods noted are not empty, and `head` is none of them. -/
theorem listed_of_collect (hfound : .head ∉ found) (h : collect found tokens = .ok c) :
    c.Listed := by
  fun_induction collect found tokens with
  | case1 found =>
    cases h
    intro methods hmethods
    split at hmethods
    · cases hmethods
    · next hne =>
      cases hmethods
      exact ⟨by simpa using hne, hfound⟩
  | case2 =>
    cases h
    nofun
  | case3 | case4 => cases h
  | case5 found t rest _ m hm _ ih =>
    refine ih (fun hhead => ?_) h
    rcases mem_noted.1 hhead with hhead | rfl
    · exact hfound hhead
    · exact hm rfl

/-- A condition that is read lists some methods, and `head` is none of them. -/
theorem listed_of_tokens (h : ofTokens tokens = .ok c) : c.Listed :=
  listed_of_collect List.not_mem_nil h

/-! ## The order of tokens -/

/-- What a condition of the tokens allows, if there is one. -/
def allowed? (tokens : List Text) : Option (Method → Bool) :=
  (ofTokens tokens).toOption.map allows

theorem allowed?_eq_none_iff :
    allowed? tokens = none ↔ ∃ t ∈ counted tokens, Refused t := by
  rw [← error_iff, allowed?]
  cases ofTokens tokens <;> simp [Except.toOption]

/-- Tokens that are the same up to order allow the same methods, as long as both are read or neither
is. -/
theorem allowed?_eq_of_perm (h : tokens.Perm tokens')
    (hrefused : (∃ t ∈ counted tokens, Refused t) ↔ ∃ t ∈ counted tokens', Refused t) :
    allowed? tokens' = allowed? tokens := by
  by_cases hnone : ∃ t ∈ counted tokens, Refused t
  · rw [allowed?_eq_none_iff.2 hnone, allowed?_eq_none_iff.2 (hrefused.1 hnone)]
  · have hnone' := mt hrefused.2 hnone
    rw [← error_iff] at hnone hnone'
    cases hc : ofTokens tokens with
    | error fault => exact absurd ⟨fault, hc⟩ hnone
    | ok c =>
      cases hc' : ofTokens tokens' with
      | error fault => exact absurd ⟨fault, hc'⟩ hnone'
      | ok c' =>
        have hnil : tokens' = [] ↔ tokens = [] :=
          ⟨fun h' => (h' ▸ h).eq_nil, fun h' => (h' ▸ h.symm).eq_nil⟩
        -- what is allowed depends on which tokens there are, not on their order
        have hsame (m : Method) : c'.allows m = c.allows m := by
          rw [Bool.eq_iff_iff, allows_of_collect hc, allows_of_collect hc', hnil]
          simp only [h.mem_iff]
        rw [allowed?, allowed?, hc, hc']
        exact congrArg some (funext hsame)

/-- Reading fails exactly where a token before the first `any` is refused, and otherwise allows the
methods that are named, `HEAD` with `GET`, or every method where the word `any` or no token at all
is given. Every order of the tokens gives the same, unless `any` and a token that is refused are
both among them. -/
theorem ofTokens_reordered (tokens : List Text) :
    ((∃ fault, ofTokens tokens = .error fault) ↔
        ∃ t ∈ tokens.takeWhile (fun t => !isAny t), Refused t) ∧
      (∀ c, ofTokens tokens = .ok c → ∀ m, c.allows m = true ↔
        (∃ t ∈ tokens, isAny t = true) ∨ tokens = [] ∨ ∃ t ∈ tokens, m.effective.NamedBy t) ∧
      ((∀ tokens', tokens.Perm tokens' → allowed? tokens' = allowed? tokens) ↔
        ¬ ((∃ t ∈ tokens, isAny t = true) ∧ ∃ t ∈ tokens, Refused t)) := by
  refine ⟨error_iff, fun c hc m => ?_, ⟨?_, ?_⟩⟩
  · rw [allows_of_collect hc]
    simp
  · rintro hall ⟨⟨t, ht, hany⟩, u, hu, hrefused⟩
    -- `any` may stand in front of the refused token, or behind it
    have hfirst := hall _ (List.perm_cons_erase ht)
    have hlast := hall _ (List.perm_cons_erase hu)
    have hnone : allowed? (u :: tokens.erase u) = none := by
      rw [allowed?_eq_none_iff, counted_cons (by simp [hrefused.1])]
      exact ⟨u, List.mem_cons_self, hrefused⟩
    rw [hnone, ← hfirst, eq_comm, allowed?_eq_none_iff, counted_of_isAny hany] at hlast
    simp at hlast
  · intro hone tokens' hperm
    apply allowed?_eq_of_perm hperm
    by_cases hany : ∃ t ∈ tokens, isAny t = true
    · have hnone : ¬ ∃ t ∈ tokens, Refused t := fun hrefused => hone ⟨hany, hrefused⟩
      have hcounted {l : List Text} (hl : ∀ t ∈ l, t ∈ tokens) :
          ¬ ∃ t ∈ counted l, Refused t := fun ⟨t, ht, hrefused⟩ =>
        hnone ⟨t, hl t (List.takeWhile_subset _ ht), hrefused⟩
      exact iff_of_false (hcounted fun _ => id) (hcounted fun _ => hperm.mem_iff.2)
    · have hany' : ¬ ∃ t ∈ tokens', isAny t = true := by
        simpa only [hperm.mem_iff] using hany
      rw [counted_of_no_any hany, counted_of_no_any hany']
      simp only [hperm.mem_iff]

/-- `PUT` and `GET` in either order, with the methods that they allow. -/
theorem ofTokens_reordered_page :
    ofTokens ["put".toList, " Get ".toList] = .ok (.only [.put, .get]) ∧
      (only [.put, .get]).allows .head = true ∧ (only [.put, .get]).allows .post = false ∧
      allowed? [" Get ".toList, "put".toList] = allowed? ["put".toList, " Get ".toList] ∧
      ∃ fault, ofTokens ["put".toList, "patch".toList, "any".toList] = .error fault := by
  obtain ⟨-, hallows, horder⟩ := ofTokens_reordered ["put".toList, " Get ".toList]
  obtain ⟨herror, -, -⟩ := ofTokens_reordered ["put".toList, "patch".toList, "any".toList]
  have hread : ofTokens ["put".toList, " Get ".toList] = .ok (.only [.put, .get]) := by
    decide +kernel
  have hany : ¬ ∃ t ∈ ["put".toList, " Get ".toList], isAny t = true := by decide +kernel
  have hpatch : ∀ m : Method, ¬ m.NamedBy "patch".toList := by
    intro m
    cases m <;> decide +kernel
  refine ⟨hread, (hallows _ hread _).2 ?_, ?_, horder.2 (fun h => hany h.1) _ (.swap _ _ []),
    herror.2 ⟨"patch".toList, by decide +kernel, rfl, fun m hm => absurd hm (hpatch m)⟩⟩
  · exact .inr (.inr ⟨" Get ".toList, by decide, by decide +kernel⟩)
  · rw [Bool.eq_false_iff, ne_eq, hallows _ hread]
    decide +kernel

/-- Behind the word `any` a token is not looked at. -/
example : ofTokens ["any".toList, "patch".toList] = .ok .any ∧
    ofTokens ["patch".toList, "any".toList] = .error (.unknown "patch".toList) := by
  decide +kernel

end MethodCondition

end Routing
