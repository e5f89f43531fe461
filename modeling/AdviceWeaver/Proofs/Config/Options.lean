import AdviceWeaver.Config.Core
import AdviceWeaver.Proofs.Sequencing
import AdviceWeaver.Proofs.Text.Search

/-!
# What options say

Options are written as keys with their values, and values as tokens. Writing them down joins all of
this by commas, so a token of a value and the key that comes next look alike to the reader, who tells
them apart by the equals sign. What is read is what was written, but for blanks around tokens, if no
token that continues a value has an equals sign of its own (`WrittenOption`).

Not every text is the writing of options. A token may have nothing but blanks in front of its first
equals sign, or no equals sign and no option before it that it could continue (`AgentOptions.Keyless`).
The first such token is what a text is refused for, and there is no other reason.

## Main results

* `AgentOptions.foldlM_readToken_renderAll` — reading what was written.
* `AgentOptions.foldlM_readToken_eq_error_iff` — which texts are refused.
* `AgentOptions.parse_reads` — both, and the groups that options switch off.
-/

namespace AdviceWeaver

/-! ### Options as they are written -/

/-- A key and the tokens of its value. The first token follows the equals sign behind the key, so it may
hold further ones. -/
structure WrittenOption where
  key : String
  first : String
  more : List String
  key_ne : key ≠ ""
  key_trimmed : Text.trim key = key
  key_comma : ',' ∉ key.toList
  key_equals : '=' ∉ key.toList
  first_comma : ',' ∉ first.toList
  more_comma : ∀ token ∈ more, ',' ∉ token.toList
  more_equals : ∀ token ∈ more, '=' ∉ token.toList
deriving DecidableEq

namespace WrittenOption

/-- The tokens of the value. -/
def tokens (o : WrittenOption) : List String :=
  o.first :: o.more

/-- What stands between commas. -/
def parts (o : WrittenOption) : List String :=
  (o.key ++ "=" ++ o.first) :: o.more

/-- The text of an option. -/
def render (o : WrittenOption) : String :=
  ",".intercalate o.parts

/-- The text of several options. -/
def renderAll (written : List WrittenOption) : String :=
  ",".intercalate (written.map render)

/-- The value of an option: its tokens without the blanks around them. -/
def value (o : WrittenOption) : String :=
  ",".intercalate (o.tokens.map Text.trim)

/-- The last option with a key. -/
def last? (written : List WrittenOption) (key : String) : Option WrittenOption :=
  written.reverse.find? fun o => o.key = key

end WrittenOption

namespace AgentOptions

/-! ### Reading tokens -/

/-- What stands between the commas of a text. -/
def tokens (text : String) : List String :=
  (text.toList.splitOn ',').map String.ofList

/-- Adds one token to the options so far, the latest of which comes first. -/
def readToken (done : List (String × String)) (token : String) :
    Except ConfigError (List (String × String)) :=
  addToken done token.toList

/-- **Reading a text** is reading its tokens. -/
theorem parse_eq (text : String) :
    parse text = do
      let done ← (tokens text).foldlM readToken []
      return ⟨done.reverse⟩ := by
  unfold parse tokens readToken
  rw [Text.splitAll_eq_splitOn, List.foldlM_map]
  simp only [String.toList_ofList]

/-- Parts without commas are what stands between the commas of their joined text. -/
theorem tokens_intercalate {parts : List String} (hcomma : ∀ part ∈ parts, ',' ∉ part.toList)
    (hne : parts ≠ []) : tokens (",".intercalate parts) = parts := by
  have hseparator : ",".toList = [','] := by decide
  have hplain : ∀ part ∈ parts.map String.toList, ',' ∉ part := by
    intro part hpart
    obtain ⟨text, htext, rfl⟩ := List.mem_map.1 hpart
    exact hcomma text htext
  unfold tokens
  rw [String.toList_intercalate, hseparator,
    List.splitOn_intercalate ',' hplain (by simpa using hne), List.map_map]
  simp [Function.comp_def]

/-- The characters of a key with what follows it. -/
theorem toList_keyed (key value : String) :
    (key ++ "=" ++ value).toList = key.toList ++ '=' :: value.toList := by
  have hequals : "=".toList = ['='] := by decide
  simp [hequals]

section ReadToken

variable {done : List (String × String)} {key value token : String}

/-- What stands in front of the first equals sign of a token is a key. -/
theorem readToken_of_key (hkey : '=' ∉ key.toList) :
    readToken done (key ++ "=" ++ value)
      = if Text.trim key = "" then .error (.emptyKey (key ++ "=" ++ value))
        else .ok ((Text.trim key, Text.trim value) :: done) := by
  have hsplit : Text.splitFirst '=' (key ++ "=" ++ value).toList = some (key.toList, value.toList) :=
    Text.splitFirst_eq_some_iff.2 ⟨toList_keyed key value, hkey⟩
  unfold readToken addToken
  simp only [hsplit, Text.trim, String.ofList_toList, List.isEmpty_iff, String.ofList_eq_empty_iff]

/-- A token without an equals sign continues the value before it. -/
theorem readToken_cons (htoken : '=' ∉ token.toList) (rest : List (String × String)) :
    readToken ((key, value) :: rest) token
      = .ok ((key, value ++ "," ++ Text.trim token) :: rest) := by
  unfold readToken addToken
  simp only [Text.splitFirst_eq_none_iff.2 htoken, Text.trim]

/-- If there is no value before it, it must be blank. -/
theorem readToken_nil (htoken : '=' ∉ token.toList) :
    readToken [] token
      = if Text.trim token = "" then .ok [] else .error (.emptyKey token) := by
  unfold readToken addToken
  simp only [Text.splitFirst_eq_none_iff.2 htoken, Text.trim, String.ofList_toList,
    List.isEmpty_iff, String.ofList_eq_empty_iff]

end ReadToken

/-! ### Reading what was written -/

/-- Tokens that continue a value are joined to it without the blanks around them. -/
theorem foldlM_readToken_more {key value : String} {more : List String}
    (hmore : ∀ token ∈ more, '=' ∉ token.toList) (rest : List (String × String)) :
    more.foldlM readToken ((key, value) :: rest)
      = .ok ((key, ",".intercalate (value :: more.map Text.trim)) :: rest) := by
  induction more generalizing value with
  | nil =>
    rw [List.map_nil, String.intercalate_singleton]
    rfl
  | cons token more ih =>
    obtain ⟨htoken, hmore⟩ := List.forall_mem_cons.1 hmore
    rw [List.foldlM_cons, readToken_cons htoken]
    refine (ih hmore).trans ?_
    rw [String.intercalate_cons_append, List.map_cons, String.intercalate_cons_cons]

/-- **One option** is read as its key and its value. -/
theorem foldlM_readToken_parts (o : WrittenOption) (done : List (String × String)) :
    o.parts.foldlM readToken done = .ok ((o.key, o.value) :: done) := by
  unfold WrittenOption.parts WrittenOption.value WrittenOption.tokens
  rw [List.foldlM_cons, readToken_of_key o.key_equals, o.key_trimmed, if_neg o.key_ne]
  exact foldlM_readToken_more o.more_equals done

/-- The tokens of written options are read to the pairs of key and value, by induction on the options.
-/
theorem foldlM_readToken_flatMap (written : List WrittenOption) (done : List (String × String)) :
    (written.flatMap WrittenOption.parts).foldlM readToken done
      = .ok ((written.map fun o => (o.key, o.value)).reverse ++ done) := by
  induction written generalizing done with
  | nil => rfl
  | cons o rest ih =>
    rw [List.flatMap_cons, List.foldlM_append, foldlM_readToken_parts]
    refine (ih ((o.key, o.value) :: done)).trans ?_
    rw [List.map_cons, List.reverse_cons, List.append_assoc, List.singleton_append]

/-- Joined groups, joined. -/
theorem intercalate_map_intercalate (separator : String) {groups : List (List String)}
    (hne : ∀ group ∈ groups, group ≠ []) :
    separator.intercalate (groups.map separator.intercalate)
      = separator.intercalate groups.flatten := by
  induction groups with
  | nil => rfl
  | cons group rest ih =>
    obtain ⟨hgroup, hrest⟩ := List.forall_mem_cons.1 hne
    cases rest with
    | nil => simp [String.intercalate_singleton]
    | cons next later =>
      have hflat : (next :: later).flatten ≠ [] := by
        rw [List.flatten_cons]
        exact List.append_ne_nil_of_left_ne_nil (hrest next List.mem_cons_self) _
      have hmapped : (next :: later).map separator.intercalate ≠ [] := List.cons_ne_nil _ _
      rw [List.map_cons, String.intercalate_cons_of_ne_nil hmapped, ih hrest,
        List.flatten_cons (l := group), String.intercalate_append_of_ne_nil hgroup hflat]

/-- The tokens of a written list are those of its options, one option after the other. -/
theorem tokens_renderAll {written : List WrittenOption} (hne : written ≠ []) :
    tokens (WrittenOption.renderAll written) = written.flatMap WrittenOption.parts := by
  have hjoined : WrittenOption.renderAll written
      = ",".intercalate (written.flatMap WrittenOption.parts) := by
    have hparts : ∀ group ∈ written.map WrittenOption.parts, group ≠ [] := by
      intro group hgroup
      obtain ⟨o, -, rfl⟩ := List.mem_map.1 hgroup
      exact List.cons_ne_nil _ _
    have hall := intercalate_map_intercalate "," hparts
    rwa [List.map_map] at hall
  rw [hjoined]
  refine tokens_intercalate (fun part hpart => ?_) ?_
  · obtain ⟨o, -, hpart⟩ := List.mem_flatMap.1 hpart
    rcases List.mem_cons.1 hpart with rfl | hpart
    · simp [o.key_comma, o.first_comma]
    · exact o.more_comma part hpart
  · obtain ⟨o, rest, rfl⟩ := List.exists_cons_of_ne_nil hne
    simp [WrittenOption.parts]

/-- **What was written is read**, the latest option first. -/
theorem foldlM_readToken_renderAll (written : List WrittenOption) :
    (tokens (WrittenOption.renderAll written)).foldlM readToken []
      = .ok (written.map fun o => (o.key, o.value)).reverse := by
  by_cases hne : written = []
  · -- The empty text has one token, which is blank.
    subst hne
    have hempty : tokens (WrittenOption.renderAll []) = [""] := by decide
    rw [hempty]
    decide
  · rw [tokens_renderAll hne, foldlM_readToken_flatMap, List.append_nil]

/-- The last option with a key gives its value. -/
theorem lookup_map_reverse (written : List WrittenOption) (key : String) :
    (written.map fun o => (o.key, o.value)).reverse.lookup key
      = (WrittenOption.last? written key).map WrittenOption.value := by
  unfold WrittenOption.last?
  rw [← List.map_reverse]
  induction written.reverse with
  | nil => rfl
  | cons o rest ih =>
    rw [List.map_cons, List.lookup_cons, List.find?_cons, ih]
    by_cases hkey : o.key = key
    · simp [hkey]
    · have hother : (key == o.key) = false := beq_false_of_ne (Ne.symm hkey)
      simp [hkey, hother]

/-! ### Texts that are refused -/

/-- A token that belongs to no key: nothing but blanks stands in front of an equals sign; or it has
none, though it is not blank, and no token before it has one. -/
def Keyless (before : List String) (token : String) : Prop :=
  (∃ front back, token.toList = front ++ '=' :: back ∧ ∀ c ∈ front, Text.isBlank c = true)
    ∨ '=' ∉ token.toList ∧ (∃ c ∈ token.toList, Text.isBlank c = false)
      ∧ ∀ t ∈ before, '=' ∉ t.toList

section Refused

variable {before after : List String} {done done' : List (String × String)} {token : String}
  {e : ConfigError}

/-- A token is written as a key and what follows it, if it has an equals sign. -/
theorem exists_key_of_mem (h : '=' ∈ token.toList) :
    ∃ key value, token = key ++ "=" ++ value ∧ '=' ∉ key.toList := by
  obtain ⟨key, value, htoken, hkey⟩ := List.eq_append_cons_of_mem h
  refine ⟨String.ofList key, String.ofList value, ?_, ?_⟩
  · rw [← String.toList_inj, htoken, toList_keyed, String.toList_ofList, String.toList_ofList]
  · rwa [String.toList_ofList]

/-- A token with an equals sign has no key exactly if what stands in front of the sign is blank. -/
theorem keyless_of_key {key value : String} (hkey : '=' ∉ key.toList) :
    Keyless before (key ++ "=" ++ value) ↔ Text.trim key = "" := by
  have htoken := toList_keyed key value
  rw [Text.trim_eq_empty_iff]
  constructor
  · rintro (⟨front, back, hsplit, hblank⟩ | ⟨hnone, -⟩)
    · -- An equals sign is no blank, so it is the first one that is meant.
      have hfront : '=' ∉ front := fun hmem => absurd (hblank '=' hmem) (by decide)
      have hfirst := Text.splitFirst_eq_some_iff.2 ⟨hsplit, hfront⟩
      rw [Text.splitFirst_eq_some_iff.2 ⟨htoken, hkey⟩] at hfirst
      cases hfirst
      exact hblank
    · exact absurd (by simp [htoken]) hnone
  · exact fun hblank => .inl ⟨key.toList, value.toList, htoken, hblank⟩

/-- **A token is refused** for want of a key, and for nothing else. -/
theorem readToken_eq_error_iff (hdone : done = [] ↔ ∀ t ∈ before, '=' ∉ t.toList) :
    readToken done token = .error e ↔ e = .emptyKey token ∧ Keyless before token := by
  by_cases hmem : '=' ∈ token.toList
  · obtain ⟨key, value, rfl, hkey⟩ := exists_key_of_mem hmem
    rw [readToken_of_key hkey, keyless_of_key hkey]
    by_cases hblank : Text.trim key = ""
    · simp [hblank, eq_comm]
    · simp [hblank]
  · have hkeyless : Keyless before token
        ↔ Text.trim token ≠ "" ∧ ∀ t ∈ before, '=' ∉ t.toList := by
      rw [Ne, Text.trim_eq_empty_iff, not_forall]
      constructor
      · rintro (⟨front, back, hsplit, -⟩ | ⟨-, ⟨c, hc, hplain⟩, hbefore⟩)
        · exact absurd (by simp [hsplit]) hmem
        · exact ⟨⟨c, fun hblank => by simp [hblank hc] at hplain⟩, hbefore⟩
      · rintro ⟨⟨c, hc⟩, hbefore⟩
        obtain ⟨hc, hplain⟩ := Classical.not_imp.1 hc
        exact .inr ⟨hmem, ⟨c, hc, Bool.eq_false_iff.2 hplain⟩, hbefore⟩
    rw [hkeyless, ← hdone]
    cases done with
    | nil =>
      rw [readToken_nil hmem]
      by_cases hblank : Text.trim token = ""
      · simp [hblank]
      · simp [hblank, eq_comm]
    | cons option rest => simp [readToken_cons hmem]

/-- Reading a token that has an equals sign adds an option; no other token does. -/
theorem readToken_nil_iff (h : readToken done token = .ok done') :
    done' = [] ↔ done = [] ∧ '=' ∉ token.toList := by
  by_cases hmem : '=' ∈ token.toList
  · obtain ⟨key, value, rfl, hkey⟩ := exists_key_of_mem hmem
    rw [readToken_of_key hkey] at h
    split at h
    · cases h
    · cases h
      simp
  · cases done with
    | nil =>
      rw [readToken_nil hmem] at h
      split at h
      · cases h
        simpa using hmem
      · cases h
    | cons option rest =>
      rw [readToken_cons hmem] at h
      cases h
      simp

/-- Nothing has been read exactly if nothing was read before and no token has an equals sign. -/
theorem foldlM_readToken_nil_iff {tokens : List String}
    (h : tokens.foldlM readToken done = .ok done') :
    done' = [] ↔ done = [] ∧ ∀ t ∈ tokens, '=' ∉ t.toList := by
  induction tokens generalizing done with
  | nil =>
    cases h
    simp
  | cons token rest ih =>
    rw [List.foldlM_cons, except_bind_eq_ok] at h
    obtain ⟨done₁, hfirst, hrest⟩ := h
    rw [ih hrest, readToken_nil_iff hfirst, List.forall_mem_cons, and_assoc]

/-- After tokens that were read, a token is refused exactly if it belongs to no key. -/
theorem readToken_after_eq_error_iff (hbefore : before.foldlM readToken [] = .ok done) :
    readToken done token = .error e ↔ e = .emptyKey token ∧ Keyless before token :=
  readToken_eq_error_iff ((foldlM_readToken_nil_iff hbefore).trans (and_iff_right rfl))

/-- Tokens are read if each of them belongs to a key. -/
theorem foldlM_readToken_eq_ok_iff {tokens : List String} :
    (∃ done, tokens.foldlM readToken [] = .ok done)
      ↔ ∀ before token after, tokens = before ++ token :: after → ¬ Keyless before token := by
  constructor
  · rintro ⟨done, hread⟩ before token after rfl hkeyless
    rw [List.foldlM_append, except_bind_eq_ok] at hread
    obtain ⟨done₁, hbefore, hread⟩ := hread
    rw [List.foldlM_cons, (readToken_after_eq_error_iff hbefore).2 ⟨rfl, hkeyless⟩] at hread
    cases hread
  · intro hall
    cases hread : tokens.foldlM readToken [] with
    | ok done => exact ⟨done, rfl⟩
    | error e =>
      obtain ⟨before, token, after, done, htokens, hbefore, hfails⟩ := foldlM_eq_error_iff.1 hread
      obtain ⟨-, hkeyless⟩ := (readToken_after_eq_error_iff hbefore).1 hfails
      exact absurd hkeyless (hall before token after htokens)

/-- **Tokens are refused** for the first of them that belongs to no key. -/
theorem foldlM_readToken_eq_error_iff {tokens : List String} :
    tokens.foldlM readToken [] = .error e ↔ ∃ before token after,
      tokens = before ++ token :: after ∧ e = .emptyKey token ∧ Keyless before token
        ∧ ∀ front t rest, before = front ++ t :: rest → ¬ Keyless front t := by
  rw [foldlM_eq_error_iff]
  constructor
  · rintro ⟨before, token, after, done, htokens, hbefore, hfails⟩
    obtain ⟨he, hkeyless⟩ := (readToken_after_eq_error_iff hbefore).1 hfails
    exact ⟨before, token, after, htokens, he, hkeyless,
      foldlM_readToken_eq_ok_iff.1 ⟨done, hbefore⟩⟩
  · rintro ⟨before, token, after, htokens, he, hkeyless, hfirst⟩
    obtain ⟨done, hbefore⟩ := foldlM_readToken_eq_ok_iff.2 hfirst
    exact ⟨before, token, after, done, htokens, hbefore,
      (readToken_after_eq_error_iff hbefore).2 ⟨he, hkeyless⟩⟩

end Refused

end AgentOptions

/-! ### Disabled groups -/

namespace CoreConfiguration

/-- The names in a list are its tokens without the blanks around them, and without empty ones. -/
theorem parseNames_eq (value : String) :
    parseNames value = ((AgentOptions.tokens value).map Text.trim).filter (· ≠ "") := by
  unfold parseNames AgentOptions.tokens
  rw [Text.splitAll_eq_splitOn, List.map_map]
  simp only [Function.comp_def, Text.trim, String.toList_ofList]

/-- The names in the value of an option. -/
theorem parseNames_value (o : WrittenOption) :
    parseNames o.value = (o.tokens.map Text.trim).filter (· ≠ "") := by
  have hcomma : ∀ token ∈ o.tokens, ',' ∉ token.toList :=
    List.forall_mem_cons.2 ⟨o.first_comma, o.more_comma⟩
  have htrimmed : ∀ part ∈ o.tokens.map Text.trim, ',' ∉ part.toList := by
    intro part hpart hmem
    obtain ⟨token, htoken, rfl⟩ := List.mem_map.1 hpart
    rw [Text.trim, String.toList_ofList] at hmem
    exact hcomma token htoken (Text.trimChars_subset token.toList hmem)
  have hne : o.tokens.map Text.trim ≠ [] := List.cons_ne_nil _ _
  rw [parseNames_eq, WrittenOption.value, AgentOptions.tokens_intercalate htrimmed hne, List.map_map]
  simp only [Function.comp_def, Text.trim_trim]

/-- The names of a list as an ascending list. -/
def sorted (names : List String) : List String :=
  names.foldl (fun done name => Text.insertAscending name done) []

/-- Sorting adds no names and loses none. -/
theorem mem_sorted {names : List String} {name : String} : name ∈ sorted names ↔ name ∈ names := by
  have hall (done : List String) :
      name ∈ names.foldl (fun done name => Text.insertAscending name done) done
        ↔ name ∈ names ∨ name ∈ done := by
    induction names generalizing done with
    | nil => simp
    | cons first rest ih =>
      rw [List.foldl_cons, ih, Text.mem_insertAscending, List.mem_cons, or_left_comm, or_assoc]
  exact (hall []).trans (by simp)

/-- Sorted names ascend, without repetitions. -/
theorem pairwise_sorted (names : List String) : (sorted names).Pairwise (· < ·) := by
  have hall (done : List String) (hdone : done.Pairwise (· < ·)) :
      (names.foldl (fun done name => Text.insertAscending name done) done).Pairwise (· < ·) := by
    induction names generalizing done with
    | nil => exact hdone
    | cons first rest ih => exact ih _ (Text.pairwise_insertAscending hdone)
  exact hall [] .nil

/-- A truth value, in capitals or not, with or without blanks around it. -/
def IsTruthValue (value : String) : Prop :=
  (Text.trim value).map Char.toLower ∈ ["true", "1", "yes", "false", "0", "no"]

/-- A truth value is read, whichever option it is for. -/
theorem exists_parseBool {value : String} (h : IsTruthValue value) (key : String) :
    ∃ b, parseBool key value = .ok b := by
  unfold parseBool
  by_cases hyes : (Text.trim value).map Char.toLower ∈ ["true", "1", "yes"]
  · exact ⟨true, if_pos hyes⟩
  · have hno : (Text.trim value).map Char.toLower ∈ ["false", "0", "no"] := by
      simp only [IsTruthValue, List.mem_cons] at h hyes ⊢
      tauto
    exact ⟨false, (if_neg hyes).trans (if_pos hno)⟩

/-- The settings in a source whose global switch can be read. -/
theorem exists_ofSource {source : ConfigSource}
    (hswitch : ∀ value, source.get instrumentKey = some value → IsTruthValue value) :
    ∃ c, ofSource source = .ok c
      ∧ c.disabled = ((source.get disabledKey).map fun value => sorted (parseNames value)).getD [] := by
  unfold ofSource
  cases hget : source.get instrumentKey with
  | none =>
    refine ⟨_, rfl, ?_⟩
    cases source.get disabledKey with
    | none => rfl
    | some value => rfl
  | some value =>
    obtain ⟨b, hb⟩ := exists_parseBool (hswitch value hget) instrumentKey
    simp only [hb]
    refine ⟨_, rfl, ?_⟩
    cases source.get disabledKey with
    | none => rfl
    | some value => rfl

end CoreConfiguration

/-! ### Options as a whole -/

namespace AgentOptions

open CoreConfiguration

variable {written : List WrittenOption}

/-- **Options are read as they were written**, but for blanks. -/
theorem exists_parse_renderAll (written : List WrittenOption) :
    ∃ options, parse (WrittenOption.renderAll written) = .ok options
      ∧ ∀ key, options.get key = (WrittenOption.last? written key).map WrittenOption.value := by
  refine ⟨⟨(written.map fun o => (o.key, o.value)).reverse.reverse⟩, ?_, fun key => ?_⟩
  · rw [parse_eq, foldlM_readToken_renderAll]
    rfl
  · unfold get
    rw [List.reverse_reverse (written.map _), lookup_map_reverse]

/-- The groups that options switch off. -/
theorem exists_ofSource_options {options : AgentOptions}
    (hget : ∀ key, options.get key = (WrittenOption.last? written key).map WrittenOption.value)
    (hswitch : ∀ o, WrittenOption.last? written instrumentKey = some o → IsTruthValue o.value) :
    ∃ c, ofSource (.options options) = .ok c ∧ c.disabled.Pairwise (· < ·)
      ∧ ∀ group, group ∈ c.disabled ↔ group ≠ ""
        ∧ ∃ o, WrittenOption.last? written disabledKey = some o
          ∧ ∃ token ∈ o.tokens, Text.trim token = group := by
  have hread (value : String)
      (hvalue : (ConfigSource.options options).get instrumentKey = some value) :
      IsTruthValue value := by
    obtain ⟨o, ho, rfl⟩ := Option.map_eq_some_iff.1 ((hget instrumentKey).symm.trans hvalue)
    exact hswitch o ho
  obtain ⟨c, hc, hdisabled⟩ := exists_ofSource hread
  have hvalue : (ConfigSource.options options).get disabledKey
      = (WrittenOption.last? written disabledKey).map WrittenOption.value := hget disabledKey
  rw [hvalue] at hdisabled
  refine ⟨c, hc, ?_⟩
  cases hlast : WrittenOption.last? written disabledKey with
  | none =>
    rw [hlast] at hdisabled
    rw [hdisabled]
    simp
  | some o =>
    rw [hlast] at hdisabled
    rw [hdisabled]
    refine ⟨pairwise_sorted _, fun group => ?_⟩
    simp only [Option.map_some, Option.getD_some, mem_sorted, parseNames_value, List.mem_filter,
      List.mem_map, decide_eq_true_eq, Option.some.injEq, exists_eq_left']
    exact and_comm

/-- **Options** are read as they were written: each key has the value of the last option with it, and
the groups that are switched off are the tokens of one of them, but for empty ones. **A text** is refused
if some token of it belongs to no key, and then for the first such token. -/
theorem parse_reads :
    (∀ written : List WrittenOption,
      ∃ options, parse (WrittenOption.renderAll written) = .ok options
        ∧ (∀ key, options.get key = (WrittenOption.last? written key).map WrittenOption.value)
        ∧ ((∀ o, WrittenOption.last? written instrumentKey = some o → IsTruthValue o.value) →
          ∃ c, ofSource (.options options) = .ok c ∧ c.disabled.Pairwise (· < ·)
            ∧ ∀ group, group ∈ c.disabled ↔ group ≠ ""
              ∧ ∃ o, WrittenOption.last? written disabledKey = some o
                ∧ ∃ token ∈ o.tokens, Text.trim token = group))
    ∧ ∀ text,
      ((∃ options, parse text = .ok options)
        ↔ ∀ before token after, tokens text = before ++ token :: after → ¬ Keyless before token)
      ∧ ∀ e, parse text = .error e ↔ ∃ before token after,
        tokens text = before ++ token :: after ∧ e = .emptyKey token ∧ Keyless before token
          ∧ ∀ front t rest, before = front ++ t :: rest → ¬ Keyless front t := by
  refine ⟨fun written => ?_, fun text => ⟨?_, fun e => ?_⟩⟩
  · obtain ⟨options, hparse, hget⟩ := exists_parse_renderAll written
    exact ⟨options, hparse, hget, exists_ofSource_options hget⟩
  · rw [← foldlM_readToken_eq_ok_iff, parse_eq]
    simp only [except_bind_eq_ok, except_pure_eq_ok]
    constructor
    · rintro ⟨options, done, hread, -⟩
      exact ⟨done, hread⟩
    · rintro ⟨done, hread⟩
      exact ⟨_, done, hread, rfl⟩
  · rw [← foldlM_readToken_eq_error_iff, parse_eq, except_bind_pure_eq_error]

/-- A list of groups, the global switch, and another list of groups, of which one is empty. -/
def sampleWritten : List WrittenOption :=
  [⟨"disabled_instrumentations", "jdbc", [" redis"], by decide, by decide, by decide, by decide,
      by decide, by decide, by decide⟩,
    ⟨"instrument", " No ", [], by decide, by decide, by decide, by decide, by decide, by decide,
      by decide⟩,
    ⟨"disabled_instrumentations", " a=b", ["", " jul-ecs "], by decide, by decide, by decide,
      by decide, by decide, by decide, by decide⟩]

/-- The last list of groups counts. A token in front of all keys is refused, one that continues a value
is not. -/
theorem parse_reads_sample :
    (∃ options, parse ("disabled_instrumentations=jdbc, redis,instrument= No ,"
          ++ "disabled_instrumentations= a=b,, jul-ecs ") = .ok options
      ∧ options.get "disabled_instrumentations" = some "a=b,,jul-ecs"
      ∧ options.get "log_level" = none
      ∧ ∃ c, ofSource (.options options) = .ok c ∧ "jul-ecs" ∈ c.disabled ∧ "jdbc" ∉ c.disabled)
    ∧ parse " , jdbc,a=b" = .error (.emptyKey " jdbc") := by
  constructor
  · obtain ⟨options, hparse, hget, hsource⟩ := parse_reads.1 sampleWritten
    have hlast : WrittenOption.last? sampleWritten disabledKey = sampleWritten[2] := by
      decide
    have hswitch (o : WrittenOption) (ho : WrittenOption.last? sampleWritten instrumentKey = some o) :
        IsTruthValue o.value := by
      have hsecond : WrittenOption.last? sampleWritten instrumentKey = sampleWritten[1] := by decide
      rw [Option.some.inj (ho.symm.trans hsecond), IsTruthValue]
      decide +kernel
    obtain ⟨c, hc, -, hmem⟩ := hsource hswitch
    refine ⟨options, ?_, ?_, (hget "log_level").trans (by decide), c, hc, ?_, ?_⟩
    · have hrender : WrittenOption.renderAll sampleWritten
          = "disabled_instrumentations=jdbc, redis,instrument= No ,"
            ++ "disabled_instrumentations= a=b,, jul-ecs " := by decide
      rwa [hrender] at hparse
    · rw [hget "disabled_instrumentations"]
      exact (congrArg (Option.map WrittenOption.value) hlast).trans (by decide)
    · exact (hmem "jul-ecs").2 ⟨by decide, _, hlast, by decide⟩
    · intro hjdbc
      obtain ⟨-, o, ho, hnone⟩ := (hmem "jdbc").1 hjdbc
      rw [← Option.some.inj (ho.symm.trans hlast).symm] at hnone
      exact absurd hnone (by decide)
  · refine ((parse_reads.2 " , jdbc,a=b").2 _).2 ⟨[" "], " jdbc", ["a=b"], by decide, rfl, ?_, ?_⟩
    · exact .inr ⟨by decide, ⟨'j', by decide, by decide⟩, by decide⟩
    · intro front t rest hsplit hkeyless
      have ht : t ∈ [" "] := hsplit ▸ List.mem_append_right front List.mem_cons_self
      rw [List.mem_singleton.1 ht] at hkeyless
      rcases hkeyless with ⟨_, _, hequals, -⟩ | ⟨-, ⟨c, hc, hplain⟩, -⟩
      · exact absurd (hequals ▸ List.mem_append_right _ List.mem_cons_self : '=' ∈ " ".toList)
          (by decide)
      · have hblank : ∀ c ∈ " ".toList, Text.isBlank c = true :=
          List.all_eq_true.1 (by decide)
        exact absurd (hblank c hc) (by simp [hplain])

end AgentOptions

end AdviceWeaver
