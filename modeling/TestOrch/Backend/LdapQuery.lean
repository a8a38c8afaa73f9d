import TestOrch.Backend.LdapAuth
import TestOrch.Core.DistinguishedName
import TestOrch.Core.LdapFilter

/-!
# What a login asks the directory (`_ldap_bind` of `backend/auth/ldap_auth.py`)

The username is spliced as it is into a search filter and into the default template of the bind DN.
Under the grammars of the two, both say what they are meant to if and only if the username has no
character that either of them wants escaped (`ldapQuery_iff`).
-/

namespace TestOrch

open DistinguishedName LdapFilter

/-- The names behind the field of the default template. -/
def templateSuffix : List Entry :=
  [("ou".toList, "people".toList), ("dc".toList, "corp".toList), ("dc".toList, "example".toList),
    ("dc".toList, "com".toList)]

/-- The name that the default template is to give. -/
def userEntries (username : String) : List Entry :=
  ("uid".toList, username.toList) :: templateSuffix

/-- The filter is one equality test of `uid` against the username and nothing else, and the DN is
the name of that `uid` in front of the suffix and nothing else. -/
def QueryIsExact (username : String) : Prop :=
  (∀ f, IsFilter (searchFilter username).toList f ↔
    f = .simple .equal "uid".toList (Utf8.encode username.toList)) ∧
  ∀ dn, IsDn (userDn ({} : LdapSettings).ldapUserDnTemplate username).toList dn ↔
    dn = (userEntries username).map Entry.rdn

/-- The characters that one of the grammars reserves. -/
def reservedChars : List Char := ['\x00', '(', ')', '*', '\\', '"', '+', ',', ';', '<', '>']

/-- A username that needs no escape: none of its characters is reserved, it begins with neither a
space nor a number sign, and it does not end with a space. -/
def UsernameIsPlain (username : String) : Prop :=
  (∀ c ∈ username.toList, c ∉ reservedChars) ∧ username.toList.head? ≠ some ' ' ∧
    username.toList.head? ≠ some '#' ∧ username.toList.getLast? ≠ some ' '

lemma userDn_default (username : String) :
    (userDn ({} : LdapSettings).ldapUserDnTemplate username).toList =
      DistinguishedName.text (userEntries username) := by
  rw [userDn, replace, String.toList_ofList]
  rfl

lemma searchFilter_toList (username : String) :
    (searchFilter username).toList =
      '(' :: ("uid".toList ++ '=' :: username.toList) ++ [')'] := by
  simp [searchFilter, toString]

lemma uid_isOid : LdapSyntax.IsOid "uid".toList := by
  refine .inl ⟨'u', ['i', 'd'], rfl, by decide, ?_⟩
  simp [LdapSyntax.IsKeychar]

lemma spec_of_mem_templateSuffix {x : Entry} (h : x ∈ templateSuffix) :
    LdapSyntax.IsOid x.1 ∧ DistinguishedName.Plain x.2 := by
  have hou : LdapSyntax.IsOid "ou".toList :=
    .inl ⟨'o', ['u'], rfl, by decide, by simp [LdapSyntax.IsKeychar]⟩
  have hdc : LdapSyntax.IsOid "dc".toList :=
    .inl ⟨'d', ['c'], rfl, by decide, by simp [LdapSyntax.IsKeychar]⟩
  simp only [templateSuffix, List.mem_cons, List.not_mem_nil, or_false] at h
  rcases h with rfl | rfl | rfl | rfl
  · refine ⟨hou, ?_⟩
    simp [DistinguishedName.Plain, DistinguishedName.IsStringchar, DistinguishedName.reserved]
  all_goals
    refine ⟨hdc, ?_⟩
    simp [DistinguishedName.Plain, DistinguishedName.IsStringchar, DistinguishedName.reserved]

/-- The filter is exact if and only if the username has no character that filters reserve. -/
lemma searchFilter_iff (username : String) :
    (∀ f, IsFilter (searchFilter username).toList f ↔
      f = .simple .equal "uid".toList (Utf8.encode username.toList)) ↔
      ∀ c ∈ username.toList, c ∉ LdapFilter.reserved := by
  rw [searchFilter_toList]
  exact LdapFilter.equality_iff uid_isOid.isAttributeDescription username.toList

/-- The bind DN is exact if and only if the username can stand in a DN as it is. -/
lemma userDn_iff (username : String) :
    (∀ dn, IsDn (userDn ({} : LdapSettings).ldapUserDnTemplate username).toList dn ↔
      dn = (userEntries username).map Entry.rdn) ↔ DistinguishedName.Plain username.toList := by
  have hoid : ∀ x ∈ userEntries username, LdapSyntax.IsOid x.1 :=
    List.forall_mem_cons.mpr ⟨uid_isOid, fun x hx => (spec_of_mem_templateSuffix hx).1⟩
  have hne : userEntries username ≠ [] := List.cons_ne_nil _ _
  rw [userDn_default, DistinguishedName.text_iff hne hoid, userEntries, List.forall_mem_cons]
  exact and_iff_left fun x hx => (spec_of_mem_templateSuffix hx).2

lemma not_mem_reservedChars (c : Char) :
    c ∉ reservedChars ↔ c ∉ LdapFilter.reserved ∧ DistinguishedName.IsStringchar c := by
  simp only [reservedChars, LdapFilter.reserved, DistinguishedName.IsStringchar,
    DistinguishedName.reserved, List.mem_cons, List.not_mem_nil, or_false, not_or]
  tauto

/-- A login asks for exactly its user if and only if the username needs no escape. -/
theorem ldapQuery_iff (username : String) : QueryIsExact username ↔ UsernameIsPlain username := by
  rw [QueryIsExact, searchFilter_iff, userDn_iff, DistinguishedName.Plain, UsernameIsPlain]
  simp only [not_mem_reservedChars]
  constructor
  · rintro ⟨hfilter, hchars, hends⟩
    exact ⟨fun c hc => ⟨hfilter c hc, hchars c hc⟩, hends⟩
  · rintro ⟨hchars, hends⟩
    exact ⟨fun c hc => (hchars c hc).1, fun c hc => (hchars c hc).2, hends⟩

/-- An asterisk is a username that is not blank, and its filter finds every user. -/
theorem asterisk_not_exact : strip "*" ≠ "" ∧ ¬ QueryIsExact "*" := by
  refine ⟨by decide, fun h => ?_⟩
  have hpresent : IsFilter (searchFilter "*").toList (.present "uid".toList) :=
    .item (.present uid_isOid.isAttributeDescription)
  cases (h.1 _).mp hpresent

end TestOrch
