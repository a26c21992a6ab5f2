import Gatehouse.Credential
import Gatehouse.Proofs.Text.Blank
import Gatehouse.Proofs.Text.Split

/-!
Which headers carry a credential.

A header carries a token when it has the form of one (`Carries`): the scheme, a space and the token, with blanks
around the token and in front of the scheme. What is wrong with any other header is told by its form too
(`Refused`). Both are said of texts that are put together; reading a header trims it and cuts it instead. Blanks
around a header do not matter (`ofHeader_around`), and what is inside of them is cut at its first space.

The main statement is `ofHeader_grammar`: headers of the form are read as their token, which is the only one
they carry, and all others are refused. The header is trimmed before it is cut, so what stands after the scheme
is never blank, and no header is refused for an empty token.
-/

namespace Gatehouse

open Text

namespace Text

variable {c : Char} {s : String}

/-- A word without blanks has none in any case. -/
theorem isBlank_of_sameLetters {word : String}
    (plain : ∀ c ∈ word.toList.map Char.toLower, isBlank c = false) (same : sameLetters s word = true) :
    ∀ c ∈ s.toList, isBlank c = false := by
  intro c mem
  by_contra blank
  have blank : isBlank c = true := by simpa using blank
  have lowered : c ∈ word.toList.map Char.toLower := by
    rw [← beq_iff_eq.mp same, ← toLower_of_isBlank blank]
    exact List.mem_map_of_mem mem
  exact absurd (plain c lowered) (by simp [blank])

end Text

namespace Credential

variable {p before text after scheme rest token : String} {header : Option String} {fault : CredentialFault}

/-- A header carries a token: it names the scheme, and after a space comes the token. -/
inductive Carries : String → String → Prop where
  | of {before scheme between token after : String} (front : Blanks before)
      (named : sameLetters scheme "bearer" = true) (gap : Blanks between) (tight : Tight token)
      (back : Blanks after) : Carries (before ++ scheme ++ " " ++ between ++ token ++ after) token

/-- What is wrong with a header that carries no token: there is nothing in it, or one word, or the word before
its first space is another scheme. -/
inductive Refused : Option String → CredentialFault → Prop where
  | nothing {header : Option String} (blank : ∀ h, header = some h → Blanks h) :
      Refused header .missingHeader
  | word {before text after : String} (front : Blanks before) (tight : Tight text)
      (one : ' ' ∉ text.toList) (back : Blanks after) :
      Refused (some (before ++ text ++ after)) .malformedHeader
  | scheme {before scheme rest after : String} (front : Blanks before)
      (tight : Tight (scheme ++ " " ++ rest)) (first : ' ' ∉ scheme.toList)
      (other : sameLetters scheme "bearer" = false) (back : Blanks after) :
      Refused (some (before ++ (scheme ++ " " ++ rest) ++ after)) (.unsupportedScheme scheme)

theorem Carries.tight (carries : Carries text token) : Tight token := by
  obtain ⟨-, -, -, tight, -⟩ := carries
  exact tight

theorem Refused.ne_emptyToken (refused : Refused header fault) : fault ≠ .emptyToken := by
  rintro rfl
  cases refused

/-! ### Reading -/

/-- A scheme has no blanks. -/
theorem isBlank_of_named (named : sameLetters scheme "bearer" = true) :
    ∀ c ∈ scheme.toList, isBlank c = false := by
  have plain : ("bearer".toList.map Char.toLower).all (!isBlank ·) = true := rfl
  exact isBlank_of_sameLetters (fun c mem => by simpa using List.all_eq_true.mp plain c mem) named

/-- A text without blanks around it is cut at its first space. -/
theorem ofHeader_of_tight (tight : Tight text) : ofHeader p (some text) =
    match splitFirst ' ' text with
    | none => .error .malformedHeader
    | some (scheme, token) =>
      if !sameLetters scheme "bearer" then .error (.unsupportedScheme scheme)
      else if trim token = "" then .error .emptyToken
      else .ok (ofToken p (trim token)) := by
  have kept : ((some text).map trim).filter (· ≠ "") = some text := by
    rw [Option.map_some, trim_of_tight tight]
    exact Option.filter_some_pos (by simpa using tight.given)
  unfold ofHeader
  generalize ((some text).map trim).filter (· ≠ "") = found at kept ⊢
  subst kept
  rfl

/-- Blanks around a header are left out. -/
theorem ofHeader_around (front : Blanks before) (tight : Tight text) (back : Blanks after) :
    ofHeader p (some (before ++ text ++ after)) = ofHeader p (some text) := by
  unfold ofHeader
  rw [Option.map_some, Option.map_some, trim_around front tight back, trim_of_tight tight]

theorem ofHeader_nothing (blank : ∀ h, header = some h → Blanks h) :
    ofHeader p header = .error .missingHeader := by
  cases header with
  | none => rfl
  | some h =>
      have trimmed : trim h = "" := trim_eq_empty_iff.mpr (blank h rfl)
      simp [ofHeader, trimmed, Option.filter_some]

theorem ofHeader_word (tight : Tight text) (one : ' ' ∉ text.toList) :
    ofHeader p (some text) = .error .malformedHeader := by
  rw [ofHeader_of_tight tight, splitFirst_eq_none_iff.mpr one]

theorem ofHeader_scheme (tight : Tight (scheme ++ " " ++ rest)) (first : ' ' ∉ scheme.toList)
    (other : sameLetters scheme "bearer" = false) :
    ofHeader p (some (scheme ++ " " ++ rest)) = .error (.unsupportedScheme scheme) := by
  have cut : splitFirst ' ' (scheme ++ " " ++ rest) = some (scheme, rest) :=
    splitFirst_eq_some_iff.mpr ⟨rfl, first⟩
  rw [ofHeader_of_tight tight, cut]
  simp [other]

/-- What follows the scheme and a space is not blank, since the text would end with a blank. -/
theorem given_of_tight (tight : Tight (scheme ++ " " ++ rest)) : trim rest ≠ "" := by
  intro empty
  have blanks : Blanks (" " ++ rest) := Blanks.append (by decide) (trim_eq_empty_iff.mp empty)
  refine tight.back ?_
  rw [String.append_assoc]
  exact (endsBlank_append (by simp)).mpr (blanks.endsBlank (by simp))

/-- What follows the scheme and a space is the token. -/
theorem ofHeader_bearer (tight : Tight (scheme ++ " " ++ rest)) (named : sameLetters scheme "bearer" = true) :
    ofHeader p (some (scheme ++ " " ++ rest)) = .ok (ofToken p (trim rest)) := by
  have first : ' ' ∉ scheme.toList := fun mem => absurd (isBlank_of_named named ' ' mem) (by decide)
  have cut : splitFirst ' ' (scheme ++ " " ++ rest) = some (scheme, rest) :=
    splitFirst_eq_some_iff.mpr ⟨rfl, first⟩
  rw [ofHeader_of_tight tight, cut]
  simp [named, given_of_tight tight]

/-! ### The grammar -/

theorem ofHeader_of_refused (refused : Refused header fault) : ofHeader p header = .error fault := by
  cases refused with
  | nothing blank => exact ofHeader_nothing blank
  | word front tight one back => rw [ofHeader_around front tight back, ofHeader_word tight one]
  | scheme front tight first other back =>
      rw [ofHeader_around front tight back, ofHeader_scheme tight first other]

/-- A scheme does not begin with a blank, and goes on so. -/
theorem tight_of_named (named : sameLetters scheme "bearer" = true) (given : text ≠ "")
    (back : ¬ EndsBlank text) : Tight (scheme ++ text) := by
  have given' : scheme ≠ "" := by
    rintro rfl
    exact absurd named (by decide)
  refine tight_append given' (fun begins => ?_) given back
  obtain ⟨c, first, blank⟩ := (Option.any_eq_true ..).mp begins
  rw [isBlank_of_named named c (List.mem_of_mem_head? first)] at blank
  exact Bool.false_ne_true blank

/-- A header with a scheme carries what is left of the rest, if there is anything left. -/
theorem Carries.of_trim (front : Blanks before) (named : sameLetters scheme "bearer" = true)
    (given : trim rest ≠ "") (back : Blanks after) :
    Carries (before ++ (scheme ++ " " ++ rest) ++ after) (trim rest) := by
  obtain ⟨between, behind, gap, back', around, ends⟩ := exists_blanks_around rest
  have tight := ends.resolve_left given
  generalize trim rest = token at around tight ⊢
  rw [around]
  simpa only [String.append_assoc] using Carries.of front named gap tight (back'.append back)

/-- A header is read as the token that it carries. -/
theorem ofHeader_of_carries (carries : Carries text token) :
    ofHeader p (some text) = .ok (ofToken p token) := by
  obtain @⟨before, scheme, between, token, after, front, named, gap, tight, back⟩ := carries
  have inner : Tight (scheme ++ " " ++ (between ++ token)) := by
    rw [String.append_assoc]
    refine tight_of_named named (by simp) ?_
    rw [← String.append_assoc, endsBlank_append tight.given]
    exact tight.back
  have trimmed : trim (between ++ token) = token := by simpa using trim_around gap tight blanks_empty
  have around := ofHeader_around (p := p) front inner back
  rw [ofHeader_bearer inner named, trimmed] at around
  simpa only [String.append_assoc] using around

/-- A header carries a token or is refused. -/
theorem carries_or_refused (header : Option String) :
    (∃ text token, header = some text ∧ Carries text token) ∨ ∃ fault, Refused header fault := by
  rcases header with _ | header
  · exact Or.inr ⟨_, .nothing (by simp)⟩
  obtain ⟨before, after, front, back, whole, empty | tight⟩ := exists_blanks_around header
  · refine Or.inr ⟨_, .nothing fun h same => ?_⟩
    obtain rfl := Option.some.inj same
    exact trim_eq_empty_iff.mp empty
  obtain one | ⟨scheme, rest, first, inside⟩ := notMem_or_eq_append ' ' (trim header)
  · rw [whole]
    exact Or.inr ⟨_, .word front tight one back⟩
  rw [inside] at whole tight
  by_cases named : sameLetters scheme "bearer" = true
  · refine Or.inl ⟨header, trim rest, rfl, ?_⟩
    rw [whole]
    exact .of_trim front named (given_of_tight tight) back
  · rw [whole]
    exact Or.inr ⟨_, .scheme front tight first (by simpa using named) back⟩

/-- The credential of a token is personal when the token begins with the set prefix. -/
theorem ofToken_eq (p token : String) : ofToken p token =
    if p ≠ "" ∧ p.toList <+: token.toList then .personal token else .session token := by
  unfold ofToken
  simp only [List.isPrefixOf_iff_prefix]

/-- A header is accepted exactly when it carries a token. Then it carries no other, and the credential is the
token, which is personal exactly when a prefix is set and the token begins with it. All other headers, and none
at all, are refused as unauthenticated and told their fault, and this is never that the token is empty. -/
theorem ofHeader_grammar (p : String) :
    (∀ text, (∃ credential, ofHeader p (some text) = .ok credential) ↔ ∃ token, Carries text token) ∧
    (∀ text token token', Carries text token → Carries text token' → token = token') ∧
    (∀ text token, Carries text token → Tight token ∧
      (p ≠ "" ∧ p.toList <+: token.toList → ofHeader p (some text) = .ok (.personal token)) ∧
      (¬ (p ≠ "" ∧ p.toList <+: token.toList) → ofHeader p (some text) = .ok (.session token))) ∧
    (∀ header, (¬ ∃ text token, header = some text ∧ Carries text token) →
      ∃ fault, ofHeader p header = .error fault ∧ Refused header fault ∧
        (Error.credential fault).kind = .unauthenticated) ∧
    ∀ header, ofHeader p header ≠ .error .emptyToken := by
  have accepted {text token : String} (carries : Carries text token) :
      ofHeader p (some text) = .ok (ofToken p token) := ofHeader_of_carries carries
  refine ⟨?_, ?_, ?_, ?_, ?_⟩
  · intro text
    refine ⟨?_, fun ⟨token, carries⟩ => ⟨_, accepted carries⟩⟩
    rintro ⟨credential, read⟩
    obtain ⟨_, token, same, carries⟩ | ⟨fault, refused⟩ := carries_or_refused (some text)
    · obtain rfl := Option.some.inj same
      exact ⟨token, carries⟩
    · cases (ofHeader_of_refused refused).symm.trans read
  · intro text token token' carries carries'
    -- Without a set prefix the credential is the token itself.
    have same := (ofHeader_of_carries (p := "") carries).symm.trans (ofHeader_of_carries carries')
    simpa [ofToken] using same
  · intro text token carries
    rw [accepted carries, ofToken_eq]
    refine ⟨carries.tight, fun personal => ?_, fun session => ?_⟩
    · rw [if_pos personal]
    · rw [if_neg session]
  · intro header bare
    obtain carried | ⟨fault, refused⟩ := carries_or_refused header
    · exact absurd carried bare
    · exact ⟨fault, ofHeader_of_refused refused, refused, rfl⟩
  · intro header empty
    obtain ⟨text, token, rfl, carries⟩ | ⟨fault, refused⟩ := carries_or_refused header
    · cases (accepted carries).symm.trans empty
    · rw [ofHeader_of_refused refused] at empty
      exact refused.ne_emptyToken (Except.error.inj empty)

/-- The scheme is in mixed case, the blanks are of several kinds, and the token has one inside. A tab does not
end a scheme. -/
theorem spaced_header_read :
    Carries "\u2003BeArEr \u00a0pat_a b\t" "pat_a b" ∧
    ofHeader "pat_" (some "\u2003BeArEr \u00a0pat_a b\t") = .ok (.personal "pat_a b") ∧
    ofHeader "PAT_" (some "\u2003BeArEr \u00a0pat_a b\t") = .ok (.session "pat_a b") ∧
    (¬ ∃ token, Carries "Bearer\tpat_a" token) ∧
    ∃ fault, ofHeader "pat_" none = .error fault ∧ Refused none fault ∧
      (Error.credential fault).kind = .unauthenticated := by
  have written : Carries ("\u2003" ++ "BeArEr" ++ " " ++ "\u00a0" ++ "pat_a b" ++ "\t") "pat_a b" :=
    .of (by decide) (by decide) (by decide) (by decide) (by decide)
  have carries : Carries "\u2003BeArEr \u00a0pat_a b\t" "pat_a b" := written
  obtain ⟨-, -, read, refused, -⟩ := ofHeader_grammar "pat_"
  obtain ⟨-, -, read', -, -⟩ := ofHeader_grammar "PAT_"
  refine ⟨carries, (read _ _ carries).2.1 (by decide), (read' _ _ carries).2.2 (by decide), ?_,
    refused none (by simp)⟩
  intro carried
  obtain ⟨credential, accepted⟩ := ((ofHeader_grammar "pat_").1 "Bearer\tpat_a").mpr carried
  have fault : ofHeader "pat_" (some "Bearer\tpat_a") = .error .malformedHeader := by decide
  cases fault.symm.trans accepted

end Credential

end Gatehouse
