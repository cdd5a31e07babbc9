import Mathlib.Algebra.BigOperators.Group.List.Basic
import Mathlib.Algebra.GroupWithZero.Nat
import Mathlib.Data.List.Forall2
import Cardfile.Query.Condition
import Cardfile.Proofs.Content
import Cardfile.Proofs.Query.Clauses

/-!
# What clauses mean

The meaning of a clause is that of what is written: each name is looked up by
itself, each text is converted by itself, and the first fault in the order of
writing stands for all.  Without one the comparisons are folded from the left,
and the fingerprint is a sum, which no order of its parts can change.
-/

namespace Cardfile

namespace Text

/-- Printable characters of ASCII without blanks. -/
def Plain (text : String) : Prop :=
  ∀ c ∈ text.toList, 33 ≤ c.toNat ∧ c.toNat ≤ 126

private theorem dropWhile_of_none {p : Char → Bool} {cs : List Char}
    (free : ∀ c ∈ cs, p c = false) : cs.dropWhile p = cs := by
  cases cs with
  | nil => rfl
  | cons c cs => simp [free c (by simp)]

theorem Plain.trim_eq {text : String} (plain : Plain text) :
    trim text = text := by
  have solid : ∀ c ∈ text.toList, isBlank c = false := by
    intro c mem
    have bounds := plain c mem
    simp [isBlank]
    omega
  rw [trim, trimmed, dropWhile_of_none solid, dropWhile_of_none (by simpa),
    List.reverse_reverse, String.ofList_toList]

private theorem lowerAfter_plain {before cs : List Char}
    (plain : ∀ c ∈ cs, 33 ≤ c.toNat ∧ c.toNat ≤ 126) :
    lowerAfter before cs = cs.map Char.toLower := by
  induction cs generalizing before with
  | nil => rfl
  | cons c cs ih =>
      have bounds := plain c (by simp)
      have notSigma : c ≠ 'Σ' := by
        rintro rfl
        exact absurd bounds.2 (by decide)
      have notDotted : c ≠ '\u0130' := by
        rintro rfl
        exact absurd bounds.2 (by decide)
      have ascii : c.toNat < 128 := by omega
      simp only [List.forall_mem_cons] at plain
      simp [lowerAfter, lowerBetween, notSigma, notDotted, lowerChar, ascii,
        ih plain.2]

theorem Plain.lowerCase_eq {text : String} (plain : Plain text) :
    lowerCase text = lowerAscii text := by
  rw [lowerCase, lowerAfter_plain plain, lowerAscii]

end Text

/-- The field that a name stands for, in any case of its letters. -/
def Field.called? (name : String) : Option Field :=
  Field.all.find? fun field => field.name == Text.lowerAscii name

/-- The field that is meant by a name, if there is one. -/
def Field.meant (name : String) : Except Fault Field :=
  match Field.called? name with
  | some field => .ok field
  | none => .error (.unknownField name)

theorem Field.resolve_plain {name : String} (plain : Text.Plain name) :
    Field.resolve name = Field.meant name := by
  have found : all.find? (fun field =>
      field.name == Text.lowerCase (Text.trim name)) = called? name := by
    simp only [plain.trim_eq, plain.lowerCase_eq, called?]
  cases called : called? name with
  | none =>
      simp only [resolve, found, meant, called]
      rw [plain.trim_eq]
  | some field => simp only [resolve, found, meant, called]

theorem Field.meant_eq_ok {name : String} {field : Field} :
    Field.meant name = .ok field ↔ Field.called? name = some field := by
  unfold meant
  split <;> simp_all

theorem Field.called?_eq_some {name : String} {field : Field} :
    Field.called? name = some field ↔ Text.lowerAscii name = field.name := by
  constructor
  · intro called
    have found := List.find?_some (show all.find? _ = some field from called)
    exact (beq_iff_eq.mp found).symm
  · intro same
    rw [called?, same]
    cases field <;> rfl

namespace Query

theorem plain_of_isWordChar {c : Char} (word : isWordChar c = true) :
    33 ≤ c.toNat ∧ c.toNat ≤ 126 := by
  change (((decide _ || (decide _ && decide _)) || (decide _ && decide _)) ||
    c == '_') = true at word
  simp only [Bool.or_eq_true, Bool.and_eq_true, decide_eq_true_eq, beq_iff_eq,
    ge_iff_le, UInt32.le_iff_toNat_le] at word
  rcases word with ((upper | lower) | digit) | rfl
  · exact ⟨Nat.le_trans (by decide) upper.1, Nat.le_trans upper.2 (by decide)⟩
  · exact ⟨Nat.le_trans (by decide) lower.1, Nat.le_trans lower.2 (by decide)⟩
  · exact ⟨Nat.le_trans (by decide) digit.1, Nat.le_trans digit.2 (by decide)⟩
  · decide

theorem NameForm.plain {name : String} {ending : Ending} {written : List Char}
    (nameForm : NameForm name ending written) : Text.Plain name := by
  have starts := nameForm.startsWord
  obtain ⟨start, words⟩ := nameForm
  intro c mem
  rw [String.toList_ofList, List.mem_cons] at mem
  rcases mem with rfl | mem
  · exact plain_of_isWordChar (by simpa [StartsWord] using starts)
  · exact plain_of_isWordChar (isWordChar_eq_true.mpr (words c mem))

section Faults

variable {α β : Type}

/-- What has gone wrong. -/
def faultOf : Except Fault α → Option Fault
  | .ok _ => none
  | .error fault => some fault

/-- The first thing that has gone wrong. -/
def firstFault? (outcomes : List (Except Fault α)) : Option Fault :=
  outcomes.findSome? faultOf

theorem firstFault?_cons {outcome : Except Fault α}
    {outcomes : List (Except Fault α)} {fault : Fault} :
    firstFault? (outcome :: outcomes) = some fault ↔
      outcome = .error fault ∨
        (∃ value, outcome = .ok value) ∧
          firstFault? outcomes = some fault := by
  cases outcome <;> simp [firstFault?, List.findSome?_cons, faultOf]

theorem exists_of_firstFault? {outcomes : List (Except Fault α)} {fault : Fault}
    (found : firstFault? outcomes = some fault) :
    .error fault ∈ outcomes := by
  obtain ⟨outcome, mem, failed⟩ := List.exists_of_findSome?_eq_some found
  cases outcome with
  | ok => simp [faultOf] at failed
  | error other =>
      obtain rfl : other = fault := by simpa [faultOf] using failed
      exact mem

theorem bind_eq_ok {outcome : Except Fault α} {next : α → Except Fault β}
    {result : β} :
    outcome >>= next = .ok result ↔
      ∃ value, outcome = .ok value ∧ next value = .ok result := by
  cases outcome <;> simp [bind, Except.bind]

theorem bind_eq_error {outcome : Except Fault α} {next : α → Except Fault β}
    {fault : Fault} :
    outcome >>= next = .error fault ↔
      outcome = .error fault ∨
        ∃ value, outcome = .ok value ∧ next value = .error fault := by
  cases outcome <;> simp [bind, Except.bind]

theorem bind_eq_error_iff {outcome : Except Fault α}
    {next : α → Except Fault β} {first second : Option Fault} {fault : Fault}
    (left : ∀ fault, outcome = .error fault ↔ first = some fault)
    (right : ∀ value, next value = .error fault ↔ second = some fault) :
    outcome >>= next = .error fault ↔ first.or second = some fault := by
  cases outcome with
  | error other =>
      rw [(left other).mp rfl]
      simp [bind, Except.bind]
  | ok value =>
      have none : first = none :=
        Option.eq_none_iff_forall_ne_some.mpr fun fault found =>
          by simpa using (left fault).mpr found
      rw [none, Option.none_or, ← right value]
      rfl

theorem map_eq_ok {f : α → β} {outcome : Except Fault α} {result : β} :
    f <$> outcome = .ok result ↔
      ∃ value, outcome = .ok value ∧ f value = result := by
  cases outcome <;> simp [Functor.map, Except.map]

theorem map_eq_error {f : α → β} {outcome : Except Fault α} {fault : Fault} :
    f <$> outcome = .error fault ↔ outcome = .error fault := by
  cases outcome <;> simp [Functor.map, Except.map]

theorem mapM_eq_ok {f : α → Except Fault β} {xs : List α} {ys : List β} :
    xs.mapM f = .ok ys ↔ List.Forall₂ (fun x y => f x = .ok y) xs ys := by
  induction xs generalizing ys with
  | nil => cases ys <;> simp [pure, Except.pure]
  | cons x xs ih =>
      simp only [List.mapM_cons, bind_eq_ok, ih]
      cases ys <;> simp [pure, Except.pure]

theorem mapM_eq_error {f : α → Except Fault β} {xs : List α} {fault : Fault} :
    xs.mapM f = .error fault ↔ firstFault? (xs.map f) = some fault := by
  induction xs with
  | nil => simp [firstFault?, pure, Except.pure]
  | cons x xs ih =>
      simp only [List.mapM_cons, bind_eq_error, ih, List.map_cons,
        firstFault?_cons]
      simp [pure, Except.pure]

/-- The members of a chain in order. -/
def Chain.members (chain : Chain α) : List α :=
  chain.first :: chain.rest.map Prod.snd

theorem Chain.mapExcept_eq_ok {f : α → Except Fault β} {chain : Chain α}
    {result : Chain β} :
    chain.mapExcept f = .ok result ↔
      f chain.first = .ok result.first ∧
        List.Forall₂
          (fun link link' => f link.2 = .ok link'.2 ∧ link.1 = link'.1)
          chain.rest result.rest := by
  obtain ⟨first, rest⟩ := result
  simp only [mapExcept, bind_eq_ok, mapM_eq_ok]
  simp [pure, Except.pure, Prod.ext_iff]

theorem Chain.mapExcept_eq_error {f : α → Except Fault β} {chain : Chain α}
    {fault : Fault} :
    chain.mapExcept f = .error fault ↔
      firstFault? (chain.members.map f) = some fault := by
  have links : (fun link : Connective × α => faultOf do
      pure (link.1, ← f link.2)) = fun link => faultOf (f link.2) := by
    funext link
    cases f link.2 <;> rfl
  simp only [mapExcept, bind_eq_error, mapM_eq_error, members, List.map_cons,
    firstFault?_cons]
  simp only [firstFault?, List.findSome?_map, Function.comp_def, links]
  simp [pure, Except.pure]

end Faults

namespace Binding

/-- What a binding says: its name is that of a field, its text that of a
value. -/
def meaning (binding : Binding) : Except Fault Assigned :=
  match Field.called? binding.name with
  | none => .error (.unknownField binding.name)
  | some field =>
      match field.read binding.text with
      | .error reason =>
          .error (.unconvertible field.name binding.text reason)
      | .ok value => .ok ⟨field, value, binding.text⟩

/-- Whether a record has in its field what the binding says. -/
def holds (binding : Binding) (record : Record) : Bool :=
  match binding.meaning with
  | .ok assigned => (assigned.field.content record).same assigned.value
  | .error _ => false

/-- The name of the field and the text. -/
def segment (binding : Binding) : String :=
  Text.lowerAscii binding.name ++ "=" ++ binding.text

theorem ofBinding_plain {binding : Binding}
    (plain : Text.Plain binding.name) :
    Assigned.ofBinding binding = binding.meaning := by
  rw [Assigned.ofBinding, Field.resolve_plain plain, Field.meant, meaning]
  cases Field.called? binding.name with
  | none => rfl
  | some field =>
      simp only [Field.convert, bind, Except.bind, pure, Except.pure]
      cases field.read binding.text <;> rfl

theorem holds_eq {binding : Binding} {assigned : Assigned}
    (means : binding.meaning = .ok assigned) (record : Record) :
    binding.holds record = assigned.holds record := by
  simp [holds, means, Assigned.holds, Field.holds_eq_same]

theorem segment_eq {binding : Binding} {assigned : Assigned}
    (means : binding.meaning = .ok assigned) :
    binding.segment = assigned.segment := by
  unfold meaning at means
  split at means
  case h_1 => simp at means
  case h_2 field called =>
    split at means
    case h_1 => simp at means
    case h_2 value read =>
      obtain rfl : _ = assigned := by simpa using means
      rw [segment, Assigned.segment, Field.called?_eq_some.mp called]

theorem meaning_ne_malformed (binding : Binding) (failure : Failure) :
    binding.meaning ≠ .error (.malformed failure) := by
  unfold meaning
  split
  · simp
  · split <;> simp

end Binding

theorem outcomes_plain {bindings : List Binding}
    (plain : ∀ binding ∈ bindings, Text.Plain binding.name) :
    bindings.map Assigned.ofBinding = bindings.map Binding.meaning :=
  List.map_congr_left fun binding mem =>
    Binding.ofBinding_plain (plain binding mem)

/-- A condition as it is written, or nothing. -/
abbrev Clause := Option (Chain Binding)

namespace Clause

/-- The comparisons of a clause in order. -/
def bindings (clause : Clause) : List Binding :=
  match clause with
  | none => []
  | some chain => chain.members

/-- The first fault of a clause. -/
def fault? (clause : Clause) : Option Fault :=
  firstFault? (clause.bindings.map Binding.meaning)

/-- The comparisons folded from the left; nothing holds of every record. -/
def holds (clause : Clause) (record : Record) : Bool :=
  match clause with
  | none => true
  | some chain =>
      chain.rest.foldl
        (fun soFar (connective, binding) =>
          match connective with
          | .and => soFar && binding.holds record
          | .or => soFar || binding.holds record)
        (chain.first.holds record)

/-- The comparisons with the words between them. -/
def segments (clause : Clause) : List String :=
  match clause with
  | none => []
  | some chain =>
      chain.first.segment ::
        chain.rest.flatMap fun (connective, binding) =>
          match connective with
          | .and => ["and", binding.segment]
          | .or => ["or", binding.segment]

end Clause

/-- A condition tests what a clause says, and its fingerprint is the sum of
the digests of what is written. -/
structure Condition.Means (condition : Condition) (clause : Clause) : Prop where
  holds : ∀ record, condition.holds record = clause.holds record
  fingerprint : ∀ digest : String → UInt64,
    (condition.fingerprint digest).toNat =
      (clause.segments.map fun segment => (digest segment).toNat).sum %
        UInt64.size

theorem Condition.ofChain_error {clause : Clause}
    (plain : ∀ binding ∈ clause.bindings, Text.Plain binding.name)
    {fault : Fault} :
    Condition.ofChain clause = .error fault ↔ clause.fault? = some fault := by
  cases clause with
  | none => simp [ofChain, Clause.fault?, Clause.bindings, firstFault?]
  | some chain =>
      rw [Clause.fault?, ← outcomes_plain plain, Clause.bindings,
        ← Chain.mapExcept_eq_error, ofChain, map_eq_error]

private theorem toNat_foldl_add (sums : List UInt64) (soFar : UInt64) :
    (sums.foldl (· + ·) soFar).toNat =
      (soFar.toNat + (sums.map UInt64.toNat).sum) % UInt64.size := by
  induction sums generalizing soFar with
  | nil => simp
  | cons summand sums ih =>
      rw [List.foldl_cons, ih, UInt64.toNat_add]
      simp [UInt64.size]
      omega

/-- The same connective with what its comparison says. -/
def LinkCompiles (link : Connective × Binding)
    (result : Connective × Assigned) : Prop :=
  link.2.meaning = .ok result.2 ∧ link.1 = result.1

/-- A chain says what another chain means, member by member. -/
structure Chain.Compiles (chain : Chain Binding) (result : Chain Assigned) :
    Prop where
  first : chain.first.meaning = .ok result.first
  rest : List.Forall₂ LinkCompiles chain.rest result.rest

private theorem segments_of_compiles {links : List (Connective × Binding)}
    {results : List (Connective × Assigned)}
    (compiles : List.Forall₂ LinkCompiles links results) :
    (results.flatMap fun (connective, comparison) =>
        [connective.word, comparison.segment]) =
      links.flatMap fun (connective, binding) =>
        match connective with
        | .and => ["and", binding.segment]
        | .or => ["or", binding.segment] := by
  induction compiles with
  | nil => rfl
  | @cons link result _ _ related _ ih =>
      obtain ⟨connective, binding⟩ := link
      obtain ⟨_, assigned⟩ := result
      obtain ⟨means, rfl⟩ := related
      simp only [List.flatMap_cons, ih, ← Binding.segment_eq means]
      cases connective <;> rfl

theorem Chain.compiles_of_mapExcept {chain : Chain Binding}
    (plain : ∀ binding ∈ chain.members, Text.Plain binding.name)
    {result : Chain Assigned}
    (compiled : chain.mapExcept Assigned.ofBinding = .ok result) :
    chain.Compiles result := by
  obtain ⟨first, rest⟩ := Chain.mapExcept_eq_ok.mp compiled
  have plainRest : ∀ link ∈ chain.rest, Text.Plain link.2.name :=
    fun link mem => plain link.2 (by simp [members]; exact .inr ⟨_, mem⟩)
  refine ⟨by rwa [← Binding.ofBinding_plain (plain _ (by simp [members]))], ?_⟩
  apply (List.forall₂_and_left _ _ |>.mpr ⟨plainRest, rest⟩).imp
  rintro link link' ⟨plainLink, means, same⟩
  exact ⟨Binding.ofBinding_plain plainLink ▸ means, same⟩

namespace Chain.Compiles

variable {chain : Chain Binding} {result : Chain Assigned}

theorem holds_eq (compiles : chain.Compiles result) (record : Record) :
    result.holds record = Clause.holds (some chain) record := by
  symm
  apply List.rel_foldl (P := Eq) _ _ compiles.rest
  · rintro soFar _ rfl ⟨connective, binding⟩ link ⟨means, same⟩
    simp only [← same, ← Binding.holds_eq means]
    cases connective <;> rfl
  · exact Binding.holds_eq compiles.first record

theorem segments_eq (compiles : chain.Compiles result) :
    result.segments = Clause.segments (some chain) := by
  rw [Chain.segments, Clause.segments, Binding.segment_eq compiles.first]
  exact congrArg _ (segments_of_compiles compiles.rest)

theorem means (compiles : chain.Compiles result) :
    Condition.Means (some result) (some chain) where
  holds := compiles.holds_eq
  fingerprint := by
    intro digest
    rw [Condition.fingerprint, toNat_foldl_add, compiles.segments_eq]
    simp [Function.comp_def]

end Chain.Compiles

theorem Condition.ofChain_means {clause : Clause}
    (plain : ∀ binding ∈ clause.bindings, Text.Plain binding.name)
    {condition : Condition} (means : Condition.ofChain clause = .ok condition) :
    condition.Means clause := by
  cases clause with
  | none =>
      obtain rfl : none = condition := by simpa [ofChain] using means
      exact ⟨fun _ => rfl, fun _ => rfl⟩
  | some chain =>
      obtain ⟨result, compiled, rfl⟩ := map_eq_ok.mp means
      exact (Chain.compiles_of_mapExcept plain compiled).means

theorem BindingForm.plain {binding : Binding} {ending : Ending}
    {written : List Char} (bindingForm : BindingForm binding ending written) :
    Text.Plain binding.name := by
  obtain ⟨nameForm, -, -, -⟩ := bindingForm
  exact nameForm.plain

theorem LinksForm.plain {start ending : Ending}
    {links : List (Connective × Binding)} {written : List Char}
    (linksForm : LinksForm start links ending written) :
    ∀ link ∈ links, Text.Plain link.2.name := by
  induction linksForm with
  | nil => simp
  | cons _ _ _ bindingForm _ ih =>
      rintro link (_ | ⟨_, mem⟩)
      · exact bindingForm.plain
      · exact ih link mem

theorem ConditionForm.plain {chain : Chain Binding} {ending : Ending}
    {written : List Char} (conditionForm : ConditionForm chain ending written) :
    ∀ binding ∈ chain.members, Text.Plain binding.name := by
  obtain ⟨bindingForm, linksForm⟩ := conditionForm
  intro binding mem
  rcases List.mem_cons.mp mem with rfl | mem
  · exact bindingForm.plain
  · obtain ⟨link, linked, rfl⟩ := List.mem_map.mp mem
    exact linksForm.plain link linked

theorem ClauseForm.plain {clause : Clause} {written : List Char}
    (clauseForm : ClauseForm clause written) :
    ∀ binding ∈ clause.bindings, Text.Plain binding.name := by
  cases clauseForm with
  | blank => simp [Clause.bindings]
  | condition _ conditionForm => exact conditionForm.plain

theorem ClauseForm.unique {clause other : Clause} {written : List Char}
    (left : ClauseForm clause written) (right : ClauseForm other written) :
    clause = other := by
  have taken := Parser.whereClause_read.mpr ⟨left, rfl⟩
  have taken' := Parser.whereClause_read.mpr ⟨right, rfl⟩
  simpa using taken.symm.trans taken'

theorem read_of_some {α : Type} {parser : Parser α} {text : String} {value : α}
    {rest : List Char} (taken : parser.read text.toList = some (value, rest)) :
    read parser text = .ok value := by
  simp [read, Parser.run, taken, Except.mapError]

theorem read_of_none {α : Type} {parser : Parser α} {text : String}
    (failed : parser.read text.toList = none) :
    ∃ failure, read parser text = .error (.malformed failure) := by
  simp [read, Parser.run, failed, Except.mapError]

theorem meanings_ne_malformed (bindings : List Binding) (failure : Failure) :
    firstFault? (bindings.map Binding.meaning) ≠ some (.malformed failure) := by
  intro found
  obtain ⟨binding, -, failed⟩ := List.mem_map.mp (exists_of_firstFault? found)
  exact binding.meaning_ne_malformed failure failed

theorem readCondition_of_form {text : String} {clause : Clause}
    (clauseForm : ClauseForm clause text.toList) :
    readCondition text = Condition.ofChain clause := by
  have taken := Parser.whereClause_read.mpr ⟨clauseForm, rfl⟩
  rw [readCondition, read_of_some taken]
  rfl

theorem malformed_of_no_form {text : String}
    (none : ∀ clause, ¬ClauseForm clause text.toList) :
    ∃ failure, readCondition text = .error (.malformed failure) := by
  cases taken : Parser.whereClause.read text.toList with
  | some result =>
      exact absurd (Parser.whereClause_read.mp taken).1 (none result.1)
  | none =>
      obtain ⟨failure, failed⟩ := read_of_none taken
      exact ⟨failure, by rw [readCondition, failed]; rfl⟩

theorem Condition.Means.fingerprint_eq {condition condition' : Condition}
    {clause clause' : Clause} (means : condition.Means clause)
    (means' : condition'.Means clause')
    (reordered : clause.segments.Perm clause'.segments)
    (digest : String → UInt64) :
    condition.fingerprint digest = condition'.fingerprint digest := by
  apply UInt64.toNat_inj.mp
  rw [means.fingerprint, means'.fingerprint]
  exact congrArg (· % UInt64.size) (reordered.map _).sum_eq

theorem readCondition_ok {text : String} {clause : Clause}
    (clauseForm : ClauseForm clause text.toList) {condition : Condition}
    (compiled : readCondition text = .ok condition) :
    condition.Means clause := by
  rw [readCondition_of_form clauseForm] at compiled
  exact Condition.ofChain_means clauseForm.plain compiled

/-- A text is read as a condition exactly if it has the form of a clause.  The
clause is the only one; its first fault is the answer, or else the condition
means what it says.  The order of its parts does not show in the fingerprint.
-/
theorem readCondition_means (text : String) :
    ((∃ failure, readCondition text = .error (.malformed failure)) ↔
      ∀ clause, ¬ClauseForm clause text.toList) ∧
    (∀ clause : Clause, ClauseForm clause text.toList →
      (∀ other, ClauseForm other text.toList → other = clause) ∧
      match clause.fault? with
      | some fault => readCondition text = .error fault
      | none => ∃ condition, readCondition text = .ok condition ∧
          condition.Means clause) ∧
    ∀ (other : String) (clause clause' : Clause)
      (condition condition' : Condition),
      ClauseForm clause text.toList → ClauseForm clause' other.toList →
      clause.segments.Perm clause'.segments →
      readCondition text = .ok condition →
      readCondition other = .ok condition' →
      ∀ digest,
        condition.fingerprint digest = condition'.fingerprint digest := by
  refine ⟨⟨?_, malformed_of_no_form⟩, ?_, ?_⟩
  · rintro ⟨failure, failed⟩ (clause : Clause) clauseForm
    rw [readCondition_of_form clauseForm,
      Condition.ofChain_error clauseForm.plain] at failed
    exact meanings_ne_malformed _ failure failed
  · intro clause clauseForm
    refine ⟨fun other otherForm => otherForm.unique clauseForm, ?_⟩
    cases fault : clause.fault? with
    | some fault =>
        rw [readCondition_of_form clauseForm]
        exact (Condition.ofChain_error clauseForm.plain).mpr fault
    | none =>
        cases compiled : readCondition text with
        | ok condition =>
            exact ⟨condition, rfl, readCondition_ok clauseForm compiled⟩
        | error other =>
            rw [readCondition_of_form clauseForm,
              Condition.ofChain_error clauseForm.plain, fault] at compiled
            simp at compiled
  · intro other clause clause' condition condition' clauseForm clauseForm'
      reordered compiled compiled'
    exact (readCondition_ok clauseForm compiled).fingerprint_eq
      (readCondition_ok clauseForm' compiled') reordered

/-- Neither connective binds tighter.  Other clauses can share a fingerprint. -/
theorem readCondition_means_swapped :
    let record : Record := { points := 1 }
    ∃ condition condition',
      readCondition "Points = 1 or\tPOINTS='2'and letter\r\n= b " =
        .ok condition ∧
      condition.holds record = false ∧
      condition.holds { record with letter := 'b' } = true ∧
      readCondition "letter=b and points = 2 or points=1" = .ok condition' ∧
      condition'.holds record = true ∧
      ∀ digest,
        condition.fingerprint digest = condition'.fingerprint digest := by
  intro record
  let text := "Points = 1 or\tPOINTS='2'and letter\r\n= b "
  let other := "letter=b and points = 2 or points=1"
  let clause : Clause :=
    some ⟨⟨"Points", "1"⟩, [(.or, ⟨"POINTS", "2"⟩), (.and, ⟨"letter", "b"⟩)]⟩
  let clause' : Clause :=
    some ⟨⟨"letter", "b"⟩, [(.and, ⟨"points", "2"⟩), (.or, ⟨"points", "1"⟩)]⟩
  have taken : Parser.whereClause.read text.toList = some (clause, []) := by
    decide +kernel
  have taken' : Parser.whereClause.read other.toList = some (clause', []) := by
    decide +kernel
  have clauseForm := (Parser.whereClause_read.mp taken).1
  have clauseForm' := (Parser.whereClause_read.mp taken').1
  have answer := (readCondition_means text).2.1 clause clauseForm
  have answer' := (readCondition_means other).2.1 clause' clauseForm'
  rw [show clause.fault? = none by decide +kernel] at answer
  rw [show clause'.fault? = none by decide +kernel] at answer'
  obtain ⟨_, condition, compiled, means⟩ := answer
  obtain ⟨_, condition', compiled', means'⟩ := answer'
  have reordered : clause.segments.Perm clause'.segments := by decide +kernel
  refine ⟨condition, condition', compiled, ?_, ?_, compiled', ?_, ?_⟩
  · rw [means.holds]
    decide +kernel
  · rw [means.holds]
    decide +kernel
  · rw [means'.holds]
    decide +kernel
  · exact (readCondition_means text).2.2 other clause clause' condition
      condition' clauseForm clauseForm' reordered compiled compiled'

end Query

end Cardfile
