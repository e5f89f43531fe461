import AdviceWeaver.Hosting.Memory
import AdviceWeaver.Proofs.Text.Search

/-!
# The types in a descriptor

The descriptor of a method spells the types of its parameters between parentheses and its result
behind them (`MethodType.descriptor`). The parameters are read from the front, one type after the
other, so no name of a class can lead the reading astray. The result is looked for behind the last
closing parenthesis. A closing parenthesis may stand in the name of a class, and if one does in the
name of the class that is returned, what is read is not the result.

## Main results

* `Descriptor.nextType_spelling` — a type is read back, whatever follows it.
* `MethodType.decodes` — parameters and result as methods and matchers tell them.
-/

namespace AdviceWeaver

/-! ### Types -/

/-- A type whose values are no objects. -/
inductive BaseType where
  | boolean
  | byte
  | char
  | double
  | float
  | int
  | long
  | short
deriving DecidableEq, Repr

namespace BaseType

/-- The letter of a type in descriptors. -/
def letter : BaseType → Char
  | boolean => 'Z'
  | byte => 'B'
  | char => 'C'
  | double => 'D'
  | float => 'F'
  | int => 'I'
  | long => 'J'
  | short => 'S'

/-- The name of a type in sources. -/
def sourceName : BaseType → String
  | boolean => "boolean"
  | byte => "byte"
  | char => "char"
  | double => "double"
  | float => "float"
  | int => "int"
  | long => "long"
  | short => "short"

end BaseType

/-- The internal name of a class. Slashes separate its parts; all other characters are free but for
those that mean something else in descriptors or in binary names. -/
structure ClassName where
  chars : List Char
  nonempty : chars ≠ []
  legal : ∀ c ∈ chars, c ≠ '.' ∧ c ≠ ';' ∧ c ≠ '['
deriving DecidableEq

/-- The name of a class in sources. -/
def ClassName.sourceName (n : ClassName) : String :=
  String.ofList (n.chars.map fun c => if c = '/' then '.' else c)

/-- A type of values. -/
inductive FieldType where
  | base (type : BaseType)
  | object (name : ClassName)
  | array (element : FieldType)
deriving DecidableEq

namespace FieldType

/-- The type as descriptors spell it. -/
def spelling : FieldType → List Char
  | base type => [type.letter]
  | object name => 'L' :: (name.chars ++ [';'])
  | array element => '[' :: element.spelling

/-- The type as sources name it: each dimension of an array adds a pair of brackets. -/
def sourceName : FieldType → String
  | base type => type.sourceName
  | object name => name.sourceName
  | array element => element.sourceName ++ "[]"

end FieldType

/-- What a method takes and what it returns, which may be nothing. -/
structure MethodType where
  params : List FieldType
  result : Option FieldType
deriving DecidableEq

namespace MethodType

/-- The result as descriptors spell it. -/
def resultSpelling (d : MethodType) : List Char :=
  (d.result.map FieldType.spelling).getD ['V']

/-- The result as sources name it. -/
def resultName (d : MethodType) : String :=
  (d.result.map FieldType.sourceName).getD "void"

/-- The descriptor of a method. -/
def descriptor (d : MethodType) : String :=
  String.ofList ('(' :: (d.params.flatMap FieldType.spelling ++ ')' :: d.resultSpelling))

end MethodType

/-! ### Reading one type -/

namespace Descriptor

/-- A letter for a primitive type is read as its name. -/
theorem nextElement_letter (b : BaseType) (rest : List Char) :
    nextElement (b.letter :: rest) = some (b.sourceName, rest) := by
  cases b <;> rfl

/-- A class between `L` and `;` is read as its binary name. -/
theorem nextElement_object (n : ClassName) (rest : List Char) :
    nextElement ('L' :: (n.chars ++ ';' :: rest)) = some (n.sourceName, rest) := by
  have hsplit : Text.splitFirst ';' (n.chars ++ ';' :: rest) = some (n.chars, rest) :=
    Text.splitFirst_eq_some_iff.2 ⟨rfl, fun hmem => (n.legal _ hmem).2.1 rfl⟩
  simp only [nextElement, hsplit]
  exact congrArg (fun name => some (name, rest)) (Text.replaceChar_ofList '/' '.' n.chars)

/-- A type that is no array is what stands in front. -/
theorem nextType_of_ne {c : Char} (hc : c ≠ '[') (cs : List Char) :
    nextType (c :: cs) = nextElement (c :: cs) := by
  have hneg : decide (c = '[') = false := decide_eq_false hc
  simp only [nextType, List.dropWhile_cons, List.takeWhile_cons, hneg, Bool.false_eq_true, if_false,
    List.flatMap_nil, List.append_nil, String.ofList_toList]
  cases nextElement (c :: cs) with
  | none => rfl
  | some found => rfl

/-- The brackets of the dimensions are all alike, so it does not matter on which side one is added. -/
theorem brackets_comm (dims : List Char) :
    '[' :: ']' :: (dims.flatMap fun _ => ['[', ']'])
      = (dims.flatMap fun _ => ['[', ']']) ++ ['[', ']'] := by
  induction dims with
  | nil => rfl
  | cons _ dims ih => simp [← ih]

/-- One more dimension adds a pair of brackets at the end. -/
theorem nextType_bracket (cs : List Char) :
    nextType ('[' :: cs) = (nextType cs).map fun found => (found.1 ++ "[]", found.2) := by
  simp only [nextType, List.dropWhile_cons, List.takeWhile_cons, decide_true, if_true,
    List.flatMap_cons, List.cons_append, List.nil_append, brackets_comm]
  cases nextElement (cs.dropWhile (· = '[')) with
  | none => rfl
  | some found =>
    obtain ⟨name, tail⟩ := found
    refine congrArg (fun text => some (text, tail)) ?_
    rw [← String.toList_inj]
    simp

/-- **A type is read back,** whatever follows it. -/
theorem nextType_spelling (t : FieldType) (rest : List Char) :
    nextType (t.spelling ++ rest) = some (t.sourceName, rest) := by
  induction t with
  | base b =>
    have hletter : b.letter ≠ '[' := by cases b <;> decide
    exact (nextType_of_ne hletter rest).trans (nextElement_letter b rest)
  | object n =>
    have hspelling : (FieldType.object n).spelling ++ rest = 'L' :: (n.chars ++ ';' :: rest) := by
      simp [FieldType.spelling]
    rw [hspelling, nextType_of_ne (by decide)]
    exact nextElement_object n rest
  | array t ih =>
    rw [FieldType.spelling, List.cons_append, nextType_bracket, ih]
    rfl

/-! ### Closing parentheses -/

/-- A closing parenthesis in the name of a type comes from its spelling. -/
theorem mem_sourceName_iff (t : FieldType) : ')' ∈ t.sourceName.toList ↔ ')' ∈ t.spelling := by
  induction t with
  | base b => cases b <;> decide
  | object n =>
    have hname : (FieldType.object n).sourceName = binaryName (String.ofList n.chars) :=
      (Text.replaceChar_ofList '/' '.' n.chars).symm
    rw [hname, binaryName, Text.mem_replaceChar_iff (by decide) (by decide), String.toList_ofList]
    simp [FieldType.spelling]
  | array t ih => simp [FieldType.spelling, FieldType.sourceName, ih]

/-- No primitive type has a closing parenthesis in its name. -/
theorem not_mem_baseName {c : Char} {name : String} (h : baseName c = some name) :
    ')' ∉ name.toList := by
  unfold baseName at h
  split at h <;> cases h <;> decide

/-- A closing parenthesis in a name that was read comes from what it was read from. -/
theorem mem_of_nextElement {cs tail : List Char} {name : String}
    (h : nextElement cs = some (name, tail)) (hname : ')' ∈ name.toList) : ')' ∈ cs := by
  unfold nextElement at h
  split at h
  · cases h
  · next rest =>
    obtain ⟨⟨front, back⟩, hsplit, heq⟩ := Option.bind_eq_some_iff.1 h
    cases heq
    obtain ⟨rfl, -⟩ := Text.splitFirst_eq_some_iff.1 hsplit
    rw [binaryName, Text.mem_replaceChar_iff (by decide) (by decide), String.toList_ofList] at hname
    exact List.mem_cons_of_mem _ (List.mem_append_left _ hname)
  · next c rest _ =>
    obtain ⟨base, hbase, heq⟩ := Option.bind_eq_some_iff.1 h
    cases heq
    exact absurd hname (not_mem_baseName hbase)

/-- A name that is read has no closing parenthesis that is not in the text. -/
theorem mem_of_nextType {cs tail : List Char} {name : String}
    (h : nextType cs = some (name, tail)) (hname : ')' ∈ name.toList) : ')' ∈ cs := by
  obtain ⟨⟨element, rest⟩, helement, heq⟩ := Option.bind_eq_some_iff.1 h
  cases heq
  rw [String.toList_ofList, List.mem_append] at hname
  rcases hname with hname | hbrackets
  · exact (List.dropWhile_suffix _).subset (mem_of_nextElement helement hname)
  · simp at hbrackets

/-! ### Reading the parameters -/

/-- No type is spelled with a closing parenthesis in front. -/
theorem head?_spelling (t : FieldType) (rest : List Char) :
    (t.spelling ++ rest).head? ≠ some ')' := by
  cases t with
  | base b => cases b <;> simp [FieldType.spelling, BaseType.letter]
  | object n => simp [FieldType.spelling]
  | array t => simp [FieldType.spelling]

/-- **Parameters are read** one after the other, up to the parenthesis that closes them. -/
theorem typesUntilClose_spelling (ts : List FieldType) (rest : List Char) :
    typesUntilClose (ts.flatMap FieldType.spelling ++ ')' :: rest)
      = ts.map FieldType.sourceName := by
  induction ts with
  | nil =>
    rw [typesUntilClose]
    simp
  | cons t ts ih =>
    rw [List.flatMap_cons, List.append_assoc, typesUntilClose, if_neg (head?_spelling t _)]
    split
    · next hnext =>
      rw [nextType_spelling] at hnext
      cases hnext
    · next name tail hnext =>
      rw [nextType_spelling] at hnext
      cases hnext
      rw [ih, List.map_cons]

end Descriptor

/-! ### Reading a descriptor -/

namespace MethodType

open Descriptor

variable {d : MethodType} {m : MethodDescription}

/-- A descriptor is spelled as its parameters in parentheses and then its result. -/
theorem toList_descriptor (d : MethodType) : d.descriptor.toList
    = '(' :: (d.params.flatMap FieldType.spelling ++ ')' :: d.resultSpelling) :=
  String.toList_ofList

/-- **The parameters** are told in order. -/
theorem parameterTypes_eq (hm : m.descriptor = d.descriptor) :
    m.parameterTypes = d.params.map FieldType.sourceName := by
  simp only [MethodDescription.parameterTypes, hm, toList_descriptor]
  exact typesUntilClose_spelling d.params d.resultSpelling

/-- The result of a method is read from its own spelling, with nothing left. -/
theorem nextType_resultSpelling (d : MethodType) :
    nextType d.resultSpelling = some (d.resultName, []) := by
  obtain ⟨params, result⟩ := d
  cases result with
  | none => rfl
  | some t =>
    have hnext := nextType_spelling t []
    rw [List.append_nil] at hnext
    exact hnext

/-- A closing parenthesis in the name of the result comes from its spelling. -/
theorem mem_resultName_iff (d : MethodType) :
    ')' ∈ d.resultName.toList ↔ ')' ∈ d.resultSpelling := by
  obtain ⟨params, result⟩ := d
  cases result with
  | none =>
    show ')' ∈ "void".toList ↔ ')' ∈ ['V']
    decide
  | some t => exact mem_sourceName_iff t

/-- What is told as the result is read behind the last closing parenthesis, so there is none in it. -/
theorem not_mem_returnType (m : MethodDescription) : ')' ∉ m.returnType.toList := by
  unfold MethodDescription.returnType
  cases hsplit : Text.splitLast ')' m.descriptor.toList with
  | none => decide
  | some parts =>
    obtain ⟨front, back⟩ := parts
    have hback : ')' ∉ back := (Text.splitLast_eq_some_iff.1 hsplit).2
    cases hnext : nextType back with
    | none => simp [hnext]
    | some found =>
      simp only [Option.bind_eq_bind, Option.bind_some, hnext]
      exact fun hname => hback (mem_of_nextType hnext hname)

/-- **The result** is told exactly if there is no closing parenthesis in it. -/
theorem returnType_eq_iff (hm : m.descriptor = d.descriptor) :
    m.returnType = d.resultName ↔ ')' ∉ d.resultSpelling := by
  constructor
  · intro heq
    rw [← mem_resultName_iff, ← heq]
    exact not_mem_returnType m
  · intro hresult
    have hsplit : Text.splitLast ')' m.descriptor.toList
        = some ('(' :: d.params.flatMap FieldType.spelling, d.resultSpelling) :=
      Text.splitLast_eq_some_iff.2 ⟨by rw [hm, toList_descriptor]; rfl, hresult⟩
    simp only [MethodDescription.returnType, hsplit, Option.bind_eq_bind, Option.bind_some,
      nextType_resultSpelling]
    rfl

/-- **What a descriptor says** is what methods tell and what matchers decide on, as to the number of the
parameters and as to each of them. As to the result, that is so if no closing parenthesis stands in the
name of the class that is returned, and otherwise never. -/
theorem decodes {ε : Type} (ops : LoaderOps ε) (hm : m.descriptor = d.descriptor) :
    m.parameterTypes = d.params.map FieldType.sourceName
      ∧ (∀ count, (Matcher.takesArguments count).eval ops m
        = pure (.ok (decide (d.params.length = count))))
      ∧ (∀ index type, (Matcher.takesArgument index type).eval ops m
        = pure (.ok (decide ((d.params[index]?).map FieldType.sourceName = some type))))
      ∧ (')' ∉ d.resultSpelling → m.returnType = d.resultName
        ∧ ∀ type, (Matcher.returns type).eval ops m = pure (.ok (decide (d.resultName = type))))
      ∧ (')' ∈ d.resultSpelling → m.returnType ≠ d.resultName
        ∧ (Matcher.returns d.resultName).eval ops m = pure (.ok false)) := by
  have hparams : m.parameterTypes = d.params.map FieldType.sourceName := parameterTypes_eq hm
  have hreturns (type : String) : (Matcher.returns type).eval ops m
      = pure (.ok (decide (m.returnType = type))) := rfl
  refine ⟨hparams, fun count => ?_, fun index type => ?_, fun hresult => ?_, fun hresult => ?_⟩
  · have heval : (Matcher.takesArguments count).eval ops m
        = pure (.ok (decide (m.parameterTypes.length = count))) := rfl
    rw [heval, hparams, List.length_map]
  · have heval : (Matcher.takesArgument index type).eval ops m
        = pure (.ok (decide (m.parameterTypes[index]? = some type))) := rfl
    rw [heval, hparams, List.getElem?_map]
  · have hreturn : m.returnType = d.resultName := (returnType_eq_iff hm).2 hresult
    exact ⟨hreturn, fun type => by rw [hreturns, hreturn]⟩
  · have hreturn : m.returnType ≠ d.resultName := fun heq => (returnType_eq_iff hm).1 heq hresult
    exact ⟨hreturn, by rw [hreturns, decide_eq_false hreturn]⟩

/-- A method that takes a number and a table of texts and returns a map. -/
def tabulating : MethodType where
  params := [.base .int, .array (.array (.object ⟨"java/lang/String".toList, by simp, by simp⟩))]
  result := some (.object ⟨"java/util/Map".toList, by simp, by simp⟩)

/-- A method that takes and returns objects of classes with a closing parenthesis in their names. -/
def parenthesized : MethodType where
  params := [.object ⟨"p)q".toList, by simp, by simp⟩, .base .int]
  result := some (.object ⟨"x)I".toList, by simp, by simp⟩)

/-- All of the first descriptor is told, but only the parameters of the second one. -/
theorem decodes_samples :
    (⟨"a.B", "m", "(I[[Ljava/lang/String;)Ljava/util/Map;", 0, []⟩ : MethodDescription).parameterTypes
        = ["int", "java.lang.String[][]"]
      ∧ (Matcher.returns "java.util.Map").eval MemoryHost.loaderOps
        (⟨"a.B", "m", "(I[[Ljava/lang/String;)Ljava/util/Map;", 0, []⟩ : MethodDescription)
          = pure (.ok true)
      ∧ (⟨"a.B", "m", "(Lp)q;I)Lx)I;", 0, []⟩ : MethodDescription).parameterTypes = ["p)q", "int"]
      ∧ (Matcher.returns "x)I").eval MemoryHost.loaderOps
        (⟨"a.B", "m", "(Lp)q;I)Lx)I;", 0, []⟩ : MethodDescription) = pure (.ok false) := by
  have htabulating : "(I[[Ljava/lang/String;)Ljava/util/Map;" = tabulating.descriptor := by decide
  have hparenthesized : "(Lp)q;I)Lx)I;" = parenthesized.descriptor := by decide
  obtain ⟨hparams, -, -, hplain, -⟩ := decodes
    (m := ⟨"a.B", "m", "(I[[Ljava/lang/String;)Ljava/util/Map;", 0, []⟩) MemoryHost.loaderOps htabulating
  obtain ⟨hparams', -, -, -, hastray⟩ := decodes
    (m := ⟨"a.B", "m", "(Lp)q;I)Lx)I;", 0, []⟩) MemoryHost.loaderOps hparenthesized
  exact ⟨hparams, (hplain (by decide)).2 "java.util.Map", hparams', (hastray (by decide)).2⟩

/-- **A closing parenthesis leads astray:** the method returns an object of a class, and a number is
told. -/
theorem returnType_parenthesized :
    parenthesized.descriptor = "(Lp)q;I)Lx)I;" ∧ parenthesized.resultName = "x)I"
      ∧ (⟨"a.B", "m", parenthesized.descriptor, 0, []⟩ : MethodDescription).returnType = "int" := by
  decide

end MethodType

end AdviceWeaver
