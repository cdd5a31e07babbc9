import Cardfile.Engine
import Cardfile.Fingerprint
import Cardfile.Proofs.FiledChanges

/-!
# Remembered answers

Several stores share one engine, and statements and direct changes come in any
order.  What the memo holds is the answer to some select in a revision of a
store, and a store that has the same revision has not changed.  A remembered
answer is found again by the digest and by the text without the white space
around it; so all answers are right just as long as those two together tell
selects apart.
-/

namespace Cardfile

open Query

/-- Several stores with the engine that runs statements on them. -/
structure Desk (count : Nat) where
  engine : Engine
  stores : Fin count → Store

/-- What happens at a desk: a statement is executed on one of the stores, or
one of them is changed directly. -/
inductive Turn (count : Nat) where
  | statement (which : Fin count) (text : String)
  | change (which : Fin count) (change : Change)

namespace Desk

variable {count : Nat}

/-- The desk with another store in a place. -/
def put (desk : Desk count) (which : Fin count) (store : Store) :
    Desk count :=
  { desk with
    stores := fun other => if other = which then store else desk.stores other }

/-- The desk after a turn. -/
def take (desk : Desk count) : Turn count → Desk count
  | .statement which text =>
      let (_, engine, store) := desk.engine.execute (desk.stores which) text
      { desk.put which store with engine := engine }
  | .change which change =>
      desk.put which ((desk.stores which).after change)

/-- What the desk answers to a statement on one of the stores. -/
def answer (desk : Desk count) (which : Fin count) (text : String) :
    Except Fault Answer :=
  (desk.engine.execute (desk.stores which) text).1

end Desk

/-- A turn that executes no text but those given. -/
def Turn.Within (texts : String → Prop) : Turn count → Prop
  | .statement _ text => texts text
  | .change _ _ => True

/-- A select on some of the texts. -/
structure Selects (texts : String → Prop) (columns : List Field)
    (condition : Condition) (shown : String) : Prop where
  exists_text : ∃ text, texts text ∧
    Statement.read text = .ok (.select columns condition shown)

/-- Two selects that share their text and the place in the memo ask for the
same. -/
def TellsApart (digest : String → UInt64) (texts : String → Prop) : Prop :=
  ∀ {firstColumns secondColumns : List Field}
    {firstCondition secondCondition : Condition} {shown : String},
    Selects texts firstColumns firstCondition shown →
    Selects texts secondColumns secondCondition shown →
    (Engine.fresh digest).memoKey firstColumns firstCondition =
      (Engine.fresh digest).memoKey secondColumns secondCondition →
    firstColumns = secondColumns ∧
      ∀ record, firstCondition.holds record = secondCondition.holds record

/-- Whatever has happened at a desk, a select is answered with the columns and
rows that the records of its store have now. -/
def AnswersRightly (digest : String → UInt64) (texts : String → Prop) :
    Prop :=
  ∀ (count : Nat) (stores : Fin count → Store),
    Function.Injective (fun which => (stores which).cabinet.serial) →
    ∀ turns : List (Turn count), (∀ turn ∈ turns, turn.Within texts) →
    let desk := turns.foldl Desk.take ⟨.fresh digest, stores⟩
    ∀ (which : Fin count) (text : String) (columns : List Field)
      (condition : Condition) (shown : String), texts text →
      Statement.read text = .ok (.select columns condition shown) →
      desk.answer which text = .ok
        { columns := headers columns
          rows := ((desk.stores which).cabinet.records.filter
            condition.holds).map (project columns) }

namespace Remembered

/-- What is remembered for the present revision of a cabinet is right, and
nothing is remembered for a later one. -/
structure FaithfulTo (kept : Remembered) (cabinet : Cabinet)
    (columns : List Field) (condition : Condition) : Prop where
  past : kept.serial = cabinet.serial → kept.revision ≤ cabinet.revision
  right : kept.serial = cabinet.serial → kept.revision = cabinet.revision →
    kept.answer = Answer.ofRecords cabinet.records columns condition

theorem FaithfulTo.advances {kept : Remembered} {before after : Cabinet}
    {columns : List Field} {condition : Condition}
    (faithful : kept.FaithfulTo before columns condition)
    (advances : before.Advances after) :
    kept.FaithfulTo after columns condition where
  past := by
    intro own
    exact Nat.le_trans (faithful.past (own.trans advances.serial))
      advances.grows
  right := by
    intro own current
    have past := faithful.past (own.trans advances.serial)
    have grows := advances.grows
    have same : after = before := advances.still (by omega)
    subst after
    exact faithful.right own current

end Remembered

namespace Engine

/-- Every remembered answer is that of a select on the texts, and right for
all the stores. -/
def Faithful (engine : Engine) (texts : String → Prop)
    (stores : Fin count → Store) : Prop :=
  ∀ key kept, (key, kept) ∈ engine.memo →
    ∃ columns condition, Selects texts columns condition kept.text ∧
      key = engine.memoKey columns condition ∧
      ∀ which, kept.FaithfulTo (stores which).cabinet columns condition

theorem execute_select (engine : Engine) (store : Store) {text : String}
    {columns : List Field} {condition : Condition} {shown : String}
    (reads : Statement.read text = .ok (.select columns condition shown)) :
    engine.execute store text =
      ((engine.runReading store.cabinet
          (.select columns condition shown)).1,
        (engine.runReading store.cabinet
          (.select columns condition shown)).2, store) := by
  unfold execute
  rw [reads]
  rfl

theorem engine_execute (engine : Engine) (store : Store) {text : String}
    (other : ∀ columns condition shown,
      Statement.read text ≠ .ok (.select columns condition shown)) :
    (engine.execute store text).2.1 = engine := by
  unfold execute
  generalize Statement.read text = reading at other ⊢
  cases reading with
  | error fault => rfl
  | ok statement =>
      cases statement with
      | insert record freshId => rfl
      | update assignments condition => rfl
      | delete condition => rfl
      | select columns condition shown =>
          exact absurd rfl (other columns condition shown)

theorem store_execute (engine : Engine) (store : Store) (text : String) :
    (engine.execute store text).2.2 = store ∨
      ∃ change, (engine.execute store text).2.2 = store.after change := by
  unfold execute
  generalize Statement.read text = reading
  cases reading with
  | error fault => exact .inl rfl
  | ok statement =>
      cases statement with
      | insert record freshId => exact .inr ⟨.create record freshId, rfl⟩
      | update assignments condition =>
          exact .inr
            ⟨.updateWhere condition.holds (assignAll assignments), rfl⟩
      | delete condition => exact .inr ⟨.deleteWhere condition.holds, rfl⟩
      | select columns condition shown => exact .inl rfl

theorem execute_advances (engine : Engine) (store : Store) (text : String) :
    store.cabinet.Advances (engine.execute store text).2.2.cabinet := by
  rcases engine.store_execute store text with same | ⟨change, changed⟩
  · rw [same]
    exact .refl _
  · rw [changed]
    exact store.after_advances change

theorem memo_length_remember (engine : Engine) (cabinet : Cabinet)
    (key : UInt64) (text : String) (answer : Answer) :
    (engine.remember cabinet key text answer).memo.length ≤ capacity := by
  simp only [remember, List.length_cons]
  split
  · simp [capacity]
  · next roomy =>
      exact Nat.lt_of_le_of_lt (List.length_filter_le _ _)
        (Nat.lt_of_not_le roomy)

theorem mem_remember {engine : Engine} {cabinet : Cabinet} {key : UInt64}
    {text : String} {answer : Answer} {entry : UInt64 × Remembered}
    (member : entry ∈ (engine.remember cabinet key text answer).memo) :
    entry = (key, ⟨text, cabinet.serial, cabinet.revision, answer⟩) ∨
      entry ∈ engine.memo := by
  simp only [remember, List.mem_cons] at member
  rcases member with new | old
  · exact .inl new
  · have roomy := (List.mem_filter.mp old).1
    right
    split at roomy
    · cases roomy
    · exact (List.mem_filter.mp roomy).1

theorem remembered?_eq_some_iff {engine : Engine} {cabinet : Cabinet}
    {key : UInt64} {text : String} {answer : Answer} :
    engine.remembered? cabinet key text = some answer ↔
      engine.memo.lookup key =
        some ⟨text, cabinet.serial, cabinet.revision, answer⟩ := by
  rw [remembered?]
  cases engine.memo.lookup key with
  | none => simp
  | some kept =>
      simp only [Option.ite_none_right_eq_some, Option.some.injEq]
      constructor
      · intro own
        obtain ⟨⟨serial, revision, shown⟩, held⟩ := own
        rw [← serial, ← revision, ← shown, ← held]
      · intro same
        rw [same]
        exact ⟨⟨rfl, rfl, rfl⟩, rfl⟩

theorem mem_of_remembered {engine : Engine} {cabinet : Cabinet}
    {key : UInt64} {text : String} {answer : Answer}
    (remembered : engine.remembered? cabinet key text = some answer) :
    (key, ⟨text, cabinet.serial, cabinet.revision, answer⟩) ∈
      engine.memo := by
  obtain ⟨before, after, split, _⟩ :=
    List.lookup_eq_some_iff.mp (remembered?_eq_some_iff.mp remembered)
  rw [split]
  simp

theorem remembered?_remember (engine : Engine) (cabinet : Cabinet)
    (key : UInt64) (text : String) (answer : Answer) :
    (engine.remember cabinet key text answer).remembered? cabinet key text =
      some answer := by
  simp [remembered?, remember]

end Engine

namespace Desk

variable {count : Nat} {digest : String → UInt64} {texts : String → Prop}

/-- What every turn keeps. -/
structure Sound (digest : String → UInt64) (texts : String → Prop)
    (desk : Desk count) : Prop where
  digest : desk.engine.digest = digest
  apart : Function.Injective fun which => (desk.stores which).cabinet.serial
  faithful : desk.engine.Faithful texts desk.stores
  bounded : desk.engine.memo.length ≤ Engine.capacity

theorem Sound.fresh (digest : String → UInt64) (texts : String → Prop)
    {stores : Fin count → Store}
    (apart : Function.Injective
      fun which => (stores which).cabinet.serial) :
    Sound digest texts ⟨.fresh digest, stores⟩ where
  digest := rfl
  apart := apart
  faithful := by
    intro key kept member
    cases member
  bounded := Nat.zero_le _

theorem stores_put (desk : Desk count) (which other : Fin count)
    (store : Store) :
    (desk.put which store).stores other =
      if other = which then store else desk.stores other := rfl

/-- A store may advance under the eyes of the engine. -/
theorem Sound.put {desk : Desk count} (sound : desk.Sound digest texts)
    {which : Fin count} {store : Store}
    (advances : (desk.stores which).cabinet.Advances store.cabinet) :
    (desk.put which store).Sound digest texts := by
  have each : ∀ other, (desk.stores other).cabinet.Advances
      ((desk.put which store).stores other).cabinet := by
    intro other
    rw [stores_put]
    split
    · next same => exact same ▸ advances
    · exact .refl _
  refine ⟨sound.digest, ?_, ?_, sound.bounded⟩
  · intro left right same
    have serials : (desk.stores left).cabinet.serial =
        (desk.stores right).cabinet.serial := by
      rw [← (each left).serial, ← (each right).serial]
      exact same
    exact sound.apart serials
  · intro key kept member
    obtain ⟨columns, condition, selects, place, faithful⟩ :=
      sound.faithful key kept member
    exact ⟨columns, condition, selects, place,
      fun other => (faithful other).advances (each other)⟩

theorem put_self (desk : Desk count) (which : Fin count) :
    desk.put which (desk.stores which) = desk := by
  have same : (desk.put which (desk.stores which)).stores = desk.stores := by
    funext other
    rw [stores_put]
    split
    · next equal => rw [equal]
    · rfl
  cases desk
  simpa [put] using same

theorem take_select (desk : Desk count) (which : Fin count) {text : String}
    {columns : List Field} {condition : Condition} {shown : String}
    (reads : Statement.read text = .ok (.select columns condition shown)) :
    desk.take (.statement which text) =
      { desk with
        engine := (desk.engine.runReading (desk.stores which).cabinet
          (.select columns condition shown)).2 } := by
  simp only [take]
  rw [Engine.execute_select _ _ reads]
  simp only [put_self]

theorem Sound.select {desk : Desk count} (sound : desk.Sound digest texts)
    (which : Fin count) {columns : List Field} {condition : Condition}
    {shown : String} (selects : Selects texts columns condition shown) :
    Sound digest texts
      { desk with
        engine := (desk.engine.runReading (desk.stores which).cabinet
          (.select columns condition shown)).2 } := by
  simp only [Engine.runReading]
  split
  · exact sound
  · refine ⟨sound.digest, sound.apart, ?_, Engine.memo_length_remember ..⟩
    intro key kept member
    rcases Engine.mem_remember member with new | old
    · cases new
      refine ⟨columns, condition, selects, rfl, ?_⟩
      intro other
      refine ⟨?_, ?_⟩ <;> intro own <;>
        have same : which = other := sound.apart own <;> subst other
      · exact Nat.le_refl _
      · intro current
        rfl
    · exact sound.faithful key kept old

theorem Sound.take {desk : Desk count} (sound : desk.Sound digest texts)
    {turn : Turn count} (within : turn.Within texts) :
    (desk.take turn).Sound digest texts := by
  cases turn with
  | change which change =>
      exact sound.put ((desk.stores which).after_advances change)
  | statement which text =>
      by_cases select : ∃ columns condition shown,
          Statement.read text = .ok (.select columns condition shown)
      · obtain ⟨columns, condition, shown, reads⟩ := select
        rw [take_select _ _ reads]
        exact sound.select which ⟨text, within, reads⟩
      · simp only [Desk.take]
        have other : ∀ columns condition shown,
            Statement.read text ≠ .ok (.select columns condition shown) := by
          intro columns condition shown reads
          exact select ⟨columns, condition, shown, reads⟩
        rw [desk.engine.engine_execute (desk.stores which) other]
        exact sound.put (desk.engine.execute_advances _ text)

theorem Sound.foldl_take {desk : Desk count}
    (sound : desk.Sound digest texts) (turns : List (Turn count))
    (within : ∀ turn ∈ turns, turn.Within texts) :
    (turns.foldl Desk.take desk).Sound digest texts :=
  List.foldlRecOn turns _ sound
    fun _ intermediate turn member =>
      intermediate.take (within turn member)

/-- A sound desk answers a select for the present records, and if not with the
select itself, then with one that shares its text and its place in the memo. -/
theorem Sound.answer_cases {desk : Desk count}
    (sound : desk.Sound digest texts) (which : Fin count) {text : String}
    {columns : List Field} {condition : Condition} {shown : String}
    (reads : Statement.read text = .ok (.select columns condition shown)) :
    ∃ (others : List Field) (test : Condition),
      (others = columns ∧ test = condition ∨
        Selects texts others test shown ∧
          (Engine.fresh digest).memoKey columns condition =
            (Engine.fresh digest).memoKey others test) ∧
      desk.answer which text = .ok
        (Answer.ofRecords (desk.stores which).cabinet.records others
          test) := by
  rw [Desk.answer, Engine.execute_select _ _ reads]
  simp only [Engine.runReading]
  split
  · next remembered found =>
      obtain ⟨others, test, selects, place, faithful⟩ :=
        sound.faithful _ _ (Engine.mem_of_remembered found)
      have place : (Engine.fresh digest).memoKey columns condition =
          (Engine.fresh digest).memoKey others test := by
        simpa [Engine.memoKey, Engine.fresh, sound.digest] using place
      refine ⟨others, test, .inr ⟨selects, place⟩, ?_⟩
      exact congrArg Except.ok ((faithful which).right rfl rfl)
  · exact ⟨columns, condition, .inl ⟨rfl, rfl⟩, rfl⟩

/-- A sound desk answers a select rightly if those that share its text and its
place in the memo ask for the same. -/
theorem Sound.answer_of_alone {desk : Desk count}
    (sound : desk.Sound digest texts) (which : Fin count) {text : String}
    {columns : List Field} {condition : Condition} {shown : String}
    (alone : ∀ {others : List Field} {test : Condition},
      Selects texts others test shown →
      (Engine.fresh digest).memoKey columns condition =
        (Engine.fresh digest).memoKey others test →
      columns = others ∧
        ∀ record, condition.holds record = test.holds record)
    (reads : Statement.read text = .ok (.select columns condition shown)) :
    desk.answer which text = .ok
      (Answer.ofRecords (desk.stores which).cabinet.records columns
        condition) := by
  obtain ⟨others, test, ⟨rfl, rfl⟩ | ⟨selects, place⟩, answered⟩ :=
    sound.answer_cases which reads
  · exact answered
  · obtain ⟨rfl, same⟩ := alone selects place
    have alike : condition.holds = test.holds := funext same
    rw [answered, Answer.ofRecords, Answer.ofRecords, alike]

theorem Sound.answer {desk : Desk count} (sound : desk.Sound digest texts)
    (tells : TellsApart digest texts) (which : Fin count) {text : String}
    {columns : List Field} {condition : Condition} {shown : String}
    (given : texts text)
    (reads : Statement.read text = .ok (.select columns condition shown)) :
    desk.answer which text = .ok
      (Answer.ofRecords (desk.stores which).cabinet.records columns
        condition) := by
  apply sound.answer_of_alone which _ reads
  intro others test selects place
  exact tells ⟨text, given, reads⟩ selects place

theorem records_create_empty (record : Record) (serial : Nat) :
    ((Cabinet.empty .acceptAll serial).create record false).2.records =
      [record] := by
  have start := Cabinet.Consistent.empty .acceptAll serial
  have created :
      ((Cabinet.empty .acceptAll serial).create record false).2 =
        ((Cabinet.empty .acceptAll serial).place record).revised := rfl
  rw [created, Cabinet.records, Cabinet.resolve, Cabinet.order_revised,
    start.order_place]
  simp [start.get?_place]

/-- A select that shares text and place in the memo with an earlier one gets
the answer of that one. -/
theorem answer_after_select (digest : String → UInt64)
    {firstText secondText : String} {firstColumns secondColumns : List Field}
    {firstCondition secondCondition : Condition} {shown : String}
    (first : Statement.read firstText =
      .ok (.select firstColumns firstCondition shown))
    (second : Statement.read secondText =
      .ok (.select secondColumns secondCondition shown))
    (place : (Engine.fresh digest).memoKey firstColumns firstCondition =
      (Engine.fresh digest).memoKey secondColumns secondCondition)
    (stores : Fin 1 → Store) :
    (take ⟨.fresh digest, stores⟩ (.statement 0 firstText)).answer 0
        secondText =
      .ok (Answer.ofRecords (stores 0).cabinet.records firstColumns
        firstCondition) := by
  have later : ∀ engine : Engine, engine.digest = digest →
      engine.memoKey secondColumns secondCondition =
        (Engine.fresh digest).memoKey secondColumns secondCondition := by
    intro engine same
    simp [Engine.memoKey, Engine.fresh, same]
  rw [take_select _ _ first, answer, Engine.execute_select _ _ second]
  simp only [Engine.runReading]
  have unknown : (Engine.fresh digest).remembered? (stores 0).cabinet
      ((Engine.fresh digest).memoKey firstColumns firstCondition) shown =
        none := rfl
  rw [unknown]
  simp only
  rw [later _ rfl, ← place, Engine.remembered?_remember]

end Desk

theorem Field.name_injective : Function.Injective Field.name := by
  intro left right same
  cases left <;> cases right <;> first | rfl | exact absurd same (by decide)

/-- Two selects that answer alike about each single record ask for the same. -/
theorem Answer.same_of_ofRecords {firstColumns secondColumns : List Field}
    {firstCondition secondCondition : Condition} {record : Record}
    (same : Answer.ofRecords [record] firstColumns firstCondition =
      Answer.ofRecords [record] secondColumns secondCondition) :
    firstColumns = secondColumns ∧
      firstCondition.holds record = secondCondition.holds record := by
  simp only [Answer.ofRecords, headers, Answer.mk.injEq] at same
  obtain ⟨columns, rows, -⟩ := same
  refine ⟨List.map_injective_iff.mpr Field.name_injective columns, ?_⟩
  have counts := congrArg List.length rows
  cases first : firstCondition.holds record <;>
    cases second : secondCondition.holds record <;>
    simp [first, second] at counts ⊢

theorem TellsApart.of_answersRightly {digest : String → UInt64}
    {texts : String → Prop} (rightly : AnswersRightly digest texts) :
    TellsApart digest texts := by
  intro firstColumns secondColumns firstCondition secondCondition shown
    ⟨firstText, firstGiven, first⟩ ⟨secondText, secondGiven, second⟩ place
  have alike : ∀ record,
      firstColumns = secondColumns ∧
        firstCondition.holds record = secondCondition.holds record := by
    intro record
    let stores : Fin 1 → Store := fun _ => .memory (.empty .acceptAll 0)
    let filled : Desk 1 :=
      Desk.take ⟨.fresh digest, stores⟩ (.change 0 (.create record false))
    have kept : (filled.stores 0).cabinet.records = [record] :=
      Desk.records_create_empty record 0
    have right : (filled.take (.statement 0 firstText)).answer 0 secondText =
        .ok (Answer.ofRecords
          ((filled.take (.statement 0 firstText)).stores 0).cabinet.records
          secondColumns secondCondition) :=
      rightly 1 stores (fun _ _ _ => Subsingleton.elim _ _)
        [.change 0 (.create record false), .statement 0 firstText]
        (by simpa [Turn.Within] using firstGiven) 0 secondText
        secondColumns secondCondition shown secondGiven second
    have given : (filled.take (.statement 0 firstText)).answer 0 secondText =
        .ok (Answer.ofRecords (filled.stores 0).cabinet.records firstColumns
          firstCondition) :=
      Desk.answer_after_select digest first second place filled.stores
    have same := Except.ok.inj (given.symm.trans right)
    rw [Desk.take_select _ _ first, kept] at same
    exact Answer.same_of_ofRecords same
  exact ⟨(alike default).1, fun record => (alike record).2⟩

private theorem bind_ok {value : Except ε α} {next : α → Except ε β}
    {result : β} (run : value >>= next = .ok result) :
    ∃ produced, value = .ok produced ∧ next produced = .ok result := by
  cases value with
  | error fault => cases run
  | ok produced => exact ⟨produced, rfl, run⟩

theorem Statement.shown_eq_trim {text : String} {columns : List Field}
    {condition : Condition} {shown : String}
    (reads : Statement.read text = .ok (.select columns condition shown)) :
    shown = Text.trim text := by
  obtain ⟨sentence, -, reads⟩ := bind_ok reads
  cases sentence with
  | insert names values =>
      obtain ⟨record, -, made⟩ := bind_ok reads
      cases made
  | update assignments test =>
      obtain ⟨assigned, -, reads⟩ := bind_ok reads
      obtain ⟨test, -, made⟩ := bind_ok reads
      cases made
  | delete test =>
      obtain ⟨test, -, made⟩ := bind_ok reads
      cases made
  | select names test =>
      obtain ⟨found, -, reads⟩ := bind_ok reads
      obtain ⟨test, -, made⟩ := bind_ok reads
      cases made
      rfl

/-- Texts without white space around them are told apart by themselves,
whatever the digest. -/
theorem TellsApart.of_trimmed {texts : String → Prop}
    (trimmed : ∀ text, texts text → Text.trim text = text)
    (digest : String → UInt64) : TellsApart digest texts := by
  intro firstColumns secondColumns firstCondition secondCondition shown
    ⟨firstText, firstGiven, first⟩ ⟨secondText, secondGiven, second⟩ _
  have same : firstText = secondText := by
    rw [← trimmed firstText firstGiven, ← trimmed secondText secondGiven,
      ← Statement.shown_eq_trim first, Statement.shown_eq_trim second]
  subst secondText
  have equal := Except.ok.inj (first.symm.trans second)
  cases equal
  exact ⟨rfl, fun _ => rfl⟩

/-- Selects are answered rightly exactly as long as the digest tells apart
those that share their text but for the white space around it; so they are for
every digest as long as there is no such white space.  The memo never grows
past its capacity. -/
theorem answersRightly_iff_tellsApart (digest : String → UInt64)
    (texts : String → Prop) :
    (AnswersRightly digest texts ↔ TellsApart digest texts) ∧
      ((∀ text, texts text → Text.trim text = text) →
        AnswersRightly digest texts) ∧
      ∀ (count : Nat) (stores : Fin count → Store),
        Function.Injective (fun which => (stores which).cabinet.serial) →
        ∀ turns : List (Turn count),
          (turns.foldl Desk.take ⟨.fresh digest, stores⟩).engine.memo.length ≤
            Engine.capacity := by
  have enough : TellsApart digest texts → AnswersRightly digest texts := by
    intro tells count stores apart turns within desk which text columns
      condition shown given reads
    have sound : desk.Sound digest texts :=
      (Desk.Sound.fresh digest texts apart).foldl_take turns within
    exact sound.answer tells which given reads
  refine ⟨⟨.of_answersRightly, enough⟩, ?_, ?_⟩
  · intro trimmed
    exact enough (TellsApart.of_trimmed trimmed digest)
  · intro count stores apart turns
    have everything : ∀ turn ∈ turns, turn.Within fun _ => True := by
      intro turn _
      cases turn <;> trivial
    exact ((Desk.Sound.fresh digest (fun _ => True) apart).foldl_take turns
      everything).bounded

/-- A name whose comparison has the same fingerprint with 32 vertical tabs
behind it. -/
def twinName : String :=
  "aaaaaaaaaaaaaaaaaaaaaa3se0wc14pydniup0jrluzz5zrv2wuauy"

/-- The name with the tabs. -/
def tabbedName : String :=
  twinName ++ String.ofList (List.replicate 32 '\x0b')

/-- The select of the records with a first name. -/
def selectByFirstName (name : String) : String :=
  "select id where firstname = " ++ name

/-- A desk with one record, of the name without the tabs. -/
def twinDesk : Desk 1 :=
  Desk.take ⟨.fresh Fingerprint.ofText, fun _ => .memory (.empty .acceptAll 0)⟩
    (.change 0 (.create { id := 1, firstName := twinName } false))

/-- Asked for the name without the tabs and then for the one with them, the
desk gives the same answer twice. -/
theorem tabbedName_answered_as_twinName :
    let condition : Condition :=
      some ⟨⟨.firstName, .text tabbedName, tabbedName⟩, []⟩
    Statement.read (selectByFirstName tabbedName) =
        .ok (.select [.id] condition (selectByFirstName twinName)) ∧
      (twinDesk.stores 0).cabinet.records.filter condition.holds = [] ∧
      (twinDesk.take (.statement 0 (selectByFirstName twinName))).answer 0
          (selectByFirstName tabbedName) =
        .ok { columns := ["id"], rows := [["1"]] } ∧
      ¬AnswersRightly Fingerprint.ofText fun _ => True := by
  intro condition
  let other : Condition := some ⟨⟨.firstName, .text twinName, twinName⟩, []⟩
  have first : Statement.read (selectByFirstName twinName) =
      .ok (.select [.id] other (selectByFirstName twinName)) := by
    decide +kernel
  have second : Statement.read (selectByFirstName tabbedName) =
      .ok (.select [.id] condition (selectByFirstName twinName)) := by
    decide +kernel
  have place :
      (Engine.fresh Fingerprint.ofText).memoKey [.id] other =
        (Engine.fresh Fingerprint.ofText).memoKey [.id] condition := by
    decide +kernel
  have absent :
      (twinDesk.stores 0).cabinet.records.filter condition.holds = [] := by
    decide +kernel
  have listed : Answer.ofRecords (twinDesk.stores 0).cabinet.records [.id]
      other = { columns := ["id"], rows := [["1"]] } := by
    decide +kernel
  have given := Desk.answer_after_select Fingerprint.ofText first second
    place twinDesk.stores
  rw [listed] at given
  refine ⟨second, absent, given, ?_⟩
  intro rightly
  have same := (TellsApart.of_answersRightly rightly ⟨_, trivial, first⟩
    ⟨_, trivial, second⟩ place).2 { firstName := twinName }
  exact absurd same (by decide +kernel)

end Cardfile
