import DotMatrix.CommandLine.Options
import DotMatrix.Proofs.Text.Numerals

/-!
# The language of the command line

What the arguments say is one thing, and whether it can be done is another. Arguments read as a list
of items in one way only: an option that wants a value takes the next argument, even one that looks
like an option itself. A list of items is accepted if none of them is a fault, the numbers are
numbers, and one cartridge file is named; then each setting is that of the last item about it. So it
does not matter how items about different settings follow one another.

Results:
1. `reading_iff`: there is one reading of the arguments.
2. `Draft.extend_eq`: the arguments are taken item by item.
3. `foldlM_take_iff`: what a list of items makes of a draft.
4. `command_line`: what is accepted, and what comes of it.
-/

namespace DotMatrix.Options

open Text

/-! ## Reading -/

/-- What one or two arguments say. -/
inductive Item where
  /-- An option with the argument behind it. -/
  | value (option : ValueOption) (value : String)
  /-- An option with no argument behind it. -/
  | missing (option : ValueOption)
  | untilSerial
  /-- Another argument that begins with two dashes. -/
  | unknown (argument : String)
  /-- Any other argument. -/
  | path (argument : String)
deriving DecidableEq, Repr

/-- The argument is written like an option, but is none. -/
structure Unknown (argument : String) : Prop where
  dashes : "--".toList <+: argument.toList
  noValue : ∀ option : ValueOption, argument ≠ option.text
  other : argument ≠ "--until-serial"

/-- What arguments say, from left to right. -/
inductive Reading : List String → List Item → Prop
  | done : Reading [] []
  | value (option : ValueOption) (value : String) {rest : List String} {items : List Item}
      (later : Reading rest items) :
      Reading (option.text :: value :: rest) (.value option value :: items)
  | missing (option : ValueOption) : Reading [option.text] [.missing option]
  | untilSerial {rest : List String} {items : List Item} (later : Reading rest items) :
      Reading ("--until-serial" :: rest) (.untilSerial :: items)
  | unknown {argument : String} (unknown : Unknown argument) {rest : List String}
      {items : List Item} (later : Reading rest items) :
      Reading (argument :: rest) (.unknown argument :: items)
  | path {argument : String} (plain : ¬ "--".toList <+: argument.toList) {rest : List String}
      {items : List Item} (later : Reading rest items) :
      Reading (argument :: rest) (.path argument :: items)

/-- What an argument says that no option asks for and that asks for no value. -/
def single (argument : String) : Item :=
  if argument = "--until-serial" then .untilSerial
  else if argument.startsWith "--" then .unknown argument
  else .path argument

/-- What arguments say. -/
def read : List String → List Item
  | [] => []
  | argument :: rest =>
    match ValueOption.ofText? argument with
    | some option =>
      match rest with
      | [] => [.missing option]
      | value :: rest => .value option value :: read rest
    | none => single argument :: read rest

theorem ofText?_text (option : ValueOption) : ValueOption.ofText? option.text = some option := by
  cases option <;> decide

theorem ofText?_eq_some_iff {argument : String} {option : ValueOption} :
    ValueOption.ofText? argument = some option ↔ argument = option.text := by
  constructor
  · intro found
    unfold ValueOption.ofText? at found
    have written := List.find?_some found
    exact (eq_of_beq written).symm
  · rintro rfl
    exact ofText?_text option

theorem ofText?_eq_none_iff {argument : String} :
    ValueOption.ofText? argument = none ↔ ∀ option : ValueOption, argument ≠ option.text := by
  rw [Option.eq_none_iff_forall_ne_some]
  exact forall_congr' fun option => not_congr ofText?_eq_some_iff

theorem startsWith_iff {argument : String} :
    argument.startsWith "--" = true ↔ "--".toList <+: argument.toList :=
  String.startsWith_string_iff

theorem single_untilSerial : single "--until-serial" = .untilSerial := if_pos rfl

theorem single_of_unknown {argument : String} (unknown : Unknown argument) :
    single argument = .unknown argument := by
  rw [single, if_neg unknown.other, if_pos (startsWith_iff.2 unknown.dashes)]

theorem single_of_plain {argument : String} (plain : ¬ "--".toList <+: argument.toList) :
    single argument = .path argument := by
  have other : argument ≠ "--until-serial" := by
    rintro rfl
    exact plain (by decide)
  rw [single, if_neg other, if_neg (mt startsWith_iff.1 plain)]

theorem ofText?_of_plain {argument : String} (plain : ¬ "--".toList <+: argument.toList) :
    ValueOption.ofText? argument = none := by
  refine ofText?_eq_none_iff.2 fun option same => plain ?_
  rw [same]
  cases option <;> decide

theorem reading_read (arguments : List String) : Reading arguments (read arguments) := by
  fun_induction read arguments with
  | case1 => exact .done
  | case2 argument option found => 
    obtain rfl := ofText?_eq_some_iff.1 found
    exact .missing option
  | case3 argument option found value rest ih =>
    obtain rfl := ofText?_eq_some_iff.1 found
    exact .value option value ih
  | case4 argument rest absent ih =>
    by_cases serial : argument = "--until-serial"
    · subst serial
      rw [single_untilSerial]
      exact .untilSerial ih
    by_cases dashes : "--".toList <+: argument.toList
    · have unknown : Unknown argument := ⟨dashes, ofText?_eq_none_iff.1 absent, serial⟩
      rw [single_of_unknown unknown]
      exact .unknown unknown ih
    · rw [single_of_plain dashes]
      exact .path dashes ih

theorem read_eq_of_reading {arguments : List String} {items : List Item}
    (reading : Reading arguments items) : read arguments = items := by
  induction reading with
  | done => rw [read]
  | value option value later ih => simp only [read, ofText?_text, ih]
  | missing option => simp only [read, ofText?_text]
  | untilSerial later ih =>
    have absent : ValueOption.ofText? "--until-serial" = none := by decide
    simp only [read, absent, single_untilSerial, ih]
  | unknown unknown later ih =>
    simp only [read, ofText?_eq_none_iff.2 unknown.noValue, single_of_unknown unknown, ih]
  | path plain later ih =>
    simp only [read, ofText?_of_plain plain, single_of_plain plain, ih]

theorem reading_iff {arguments : List String} {items : List Item} :
    Reading arguments items ↔ read arguments = items :=
  ⟨read_eq_of_reading, fun same => same ▸ reading_read arguments⟩

/-! ## Taking items -/

namespace Draft

/-- Takes what an item asks for. -/
def take (draft : Draft) : Item → Except OptionError Draft
  | .value option value => draft.setValue option value
  | .missing option => .error (.missingValue option)
  | .untilSerial => .ok { draft with purpose := .untilSerial }
  | .unknown argument => .error (.unknownOption argument)
  | .path argument =>
    if draft.rom.isSome then .error (.unexpectedArgument argument)
    else .ok { draft with rom := some argument }

theorem accept_eq (draft : Draft) (argument : String) :
    draft.accept argument = draft.take (single argument) := by
  unfold accept single
  split
  · rfl
  · split
    · rfl
    · rfl

theorem extend_eq (draft : Draft) (arguments : List String) :
    draft.extend arguments = (read arguments).foldlM take draft := by
  fun_induction read arguments generalizing draft with
  | case1 => rfl
  | case2 argument option found => simp only [Draft.extend, found]; rfl
  | case3 argument option found value rest ih =>
    simp only [Draft.extend, found, List.foldlM_cons, take]
    cases draft.setValue option value with
    | ok draft => exact ih draft
    | error fault => rfl
  | case4 argument rest absent ih =>
    simp only [Draft.extend, absent, List.foldlM_cons, accept_eq]
    cases draft.take (single argument) with
    | ok draft => exact ih draft
    | error fault => rfl

end Draft

/-! ## What is asked for -/

/-- What there is to be said. -/
inductive Topic where
  | rom
  | purpose
  | maxCycles
  | dumpFrame
  | fault
deriving DecidableEq, Repr

/-- What an item is about. -/
def Item.topic : Item → Topic
  | .value .frames _ => .purpose
  | .value .maxCycles _ => .maxCycles
  | .value .dumpFrame _ => .dumpFrame
  | .untilSerial => .purpose
  | .path _ => .rom
  | .missing _ => .fault
  | .unknown _ => .fault

/-- The items about a topic, in order. -/
def about (topic : Topic) (items : List Item) : List Item := items.filter (·.topic = topic)

/-- An item can be taken: its option has a value where it wants one, is none that is unknown, and
its value is a number within the limit where it has to be a number. -/
def Item.Sound : Item → Prop
  | .value .frames text => ∃ count < 2 ^ 64, Numeral.Denotes text count
  | .value .maxCycles text => ∃ count < 2 ^ 64, Numeral.Denotes text count
  | .value .dumpFrame _ => True
  | .missing _ => False
  | .untilSerial => True
  | .unknown _ => False
  | .path _ => True

/-- The item asks for the purpose. -/
inductive Item.AsksPurpose : Item → Purpose → Prop
  | frames {value : String} {count : ℕ} (denotes : Numeral.Denotes value count) :
      AsksPurpose (.value .frames value) (.frames count)
  | untilSerial : AsksPurpose .untilSerial .untilSerial

/-- The item asks for the bound on the cycles. -/
inductive Item.AsksCycles : Item → ℕ → Prop
  | maxCycles {value : String} {count : ℕ} (denotes : Numeral.Denotes value count) :
      AsksCycles (.value .maxCycles value) count

/-- The item asks for the picture of the last frame in a file. -/
inductive Item.AsksDump : Item → Option String → Prop
  | dumpFrame (path : String) : AsksDump (.value .dumpFrame path) (some path)

theorem asksPurpose_frames_iff {text : String} {count : ℕ} (denotes : Numeral.Denotes text count)
    (other : Purpose) : (Item.value .frames text).AsksPurpose other ↔ other = .frames count := by
  constructor
  · rintro ⟨same⟩
    rw [denotes.unique same]
  · rintro rfl
    exact .frames denotes

theorem asksPurpose_untilSerial_iff (other : Purpose) :
    Item.untilSerial.AsksPurpose other ↔ other = .untilSerial := by
  constructor
  · rintro ⟨⟩
    rfl
  · rintro rfl
    exact .untilSerial

theorem asksCycles_iff {text : String} {count : ℕ} (denotes : Numeral.Denotes text count)
    (other : ℕ) : (Item.value .maxCycles text).AsksCycles other ↔ other = count := by
  constructor
  · rintro ⟨same⟩
    exact same.unique denotes
  · rintro rfl
    exact .maxCycles denotes

theorem asksDump_iff (path : String) (other : Option String) :
    (Item.value .dumpFrame path).AsksDump other ↔ other = some path := by
  constructor
  · rintro ⟨⟩
    rfl
  · rintro rfl
    exact .dumpFrame path

/-- The result is what the last of the items asks for, or the default if there is none. -/
def Last {α : Type} (asks : Item → α → Prop) (items : List Item) (default result : α) : Prop :=
  match items.getLast? with
  | none => result = default
  | some item => asks item result

/-- What items have to be for a command line to be accepted, and the options that they make. -/
structure Accepted (items : List Item) (options : Options) : Prop where
  sound : ∀ item ∈ items, item.Sound
  /-- There is one cartridge file. -/
  rom : about .rom items = [.path options.rom]
  purpose : Last Item.AsksPurpose (about .purpose items) (.frames 60) options.purpose
  maxCycles : Last Item.AsksCycles (about .maxCycles items) 200000000 options.maxCycles
  dumpFrame : Last Item.AsksDump (about .dumpFrame items) none options.dumpFrame

/-- What items make of a draft. -/
@[mk_iff]
structure Taken (draft : Draft) (items : List Item) (final : Draft) : Prop where
  sound : ∀ item ∈ items, item.Sound
  rom : draft.rom.toList.map Item.path ++ about .rom items = final.rom.toList.map Item.path
  purpose : Last Item.AsksPurpose (about .purpose items) draft.purpose final.purpose
  maxCycles : Last Item.AsksCycles (about .maxCycles items) draft.maxCycles final.maxCycles
  dumpFrame : Last Item.AsksDump (about .dumpFrame items) draft.dumpFrame final.dumpFrame

theorem about_cons (topic : Topic) (item : Item) (items : List Item) :
    about topic (item :: items) =
      if item.topic = topic then item :: about topic items else about topic items := by
  simp only [about, List.filter_cons, decide_eq_true_eq]

/-- An item that asks for one thing changes what holds if nothing is asked for later. -/
theorem last_cons {α : Type} {asks : Item → α → Prop} {item : Item} {items : List Item}
    {default between result : α} (set : ∀ other, asks item other ↔ other = between) :
    Last asks (item :: items) default result ↔ Last asks items between result := by
  unfold Last
  rw [List.getLast?_cons]
  cases items.getLast? with
  | none => exact set result
  | some last => rfl

section

variable {draft final : Draft} {item : Item} {items : List Item}

theorem taken_nil : Taken draft [] final ↔ draft = final := by
  constructor
  · rintro ⟨-, rom, purpose, maxCycles, dumpFrame⟩
    obtain ⟨file, _, _, _⟩ := draft
    obtain ⟨file', _, _, _⟩ := final
    obtain rfl := purpose
    obtain rfl := maxCycles
    obtain rfl := dumpFrame
    cases file <;> cases file' <;> simp_all [about]
  · rintro rfl
    exact ⟨nofun, List.append_nil _, rfl, rfl, rfl⟩

theorem taken_cons_purpose {purpose : Purpose} (sound : item.Sound) (topic : item.topic = .purpose)
    (set : ∀ other, item.AsksPurpose other ↔ other = purpose) :
    Taken draft (item :: items) final ↔ Taken { draft with purpose } items final := by
  simp only [taken_iff, List.forall_mem_cons, and_iff_right sound, about_cons, topic, reduceCtorEq,
    if_true, if_false, last_cons set]

theorem taken_cons_maxCycles {maxCycles : ℕ} (sound : item.Sound) (topic : item.topic = .maxCycles)
    (set : ∀ other, item.AsksCycles other ↔ other = maxCycles) :
    Taken draft (item :: items) final ↔ Taken { draft with maxCycles } items final := by
  simp only [taken_iff, List.forall_mem_cons, and_iff_right sound, about_cons, topic, reduceCtorEq,
    if_true, if_false, last_cons set]

theorem taken_cons_dumpFrame (path : String) :
    Taken draft (.value .dumpFrame path :: items) final ↔
      Taken { draft with dumpFrame := some path } items final := by
  have sound : (Item.value .dumpFrame path).Sound := trivial
  have topic : (Item.value .dumpFrame path).topic = .dumpFrame := rfl
  simp only [taken_iff, List.forall_mem_cons, and_iff_right sound, about_cons, topic, reduceCtorEq,
    if_true, if_false, last_cons (asksDump_iff path)]

theorem taken_cons_path (argument : String) :
    Taken draft (.path argument :: items) final ↔
      draft.rom = none ∧ Taken { draft with rom := some argument } items final := by
  have sound : (Item.path argument).Sound := trivial
  have topic : (Item.path argument).topic = .rom := rfl
  cases file : draft.rom with
  | none =>
    simp only [taken_iff, List.forall_mem_cons, and_iff_right sound, about_cons, topic, file,
      reduceCtorEq, if_true, if_false, true_and]
    rfl
  | some other =>
    refine iff_of_false (fun taken => ?_) nofun
    have two := congrArg List.length taken.rom
    have one : final.rom.toList.length ≤ 1 := by cases final.rom <;> simp
    simp only [file, about_cons, topic, if_true, Option.toList_some, List.map_cons, List.map_nil,
      List.length_append, List.length_cons, List.length_nil, List.length_map] at two
    omega

theorem parse_numeral_iff {text : String} {count : ℕ} :
    Numeral.parse numberLimit text = .ok count ↔ count < 2 ^ 64 ∧ Numeral.Denotes text count := by
  have within : count ≤ numberLimit ↔ count < 2 ^ 64 := Nat.le_sub_one_iff_lt (by decide)
  rw [Numeral.parse_iff, within, and_comm]

/-- A text that cannot be read is no numeral within the limit. -/
theorem not_denotes_of_parse {text : String} {cause : NumeralError}
    (fails : Numeral.parse numberLimit text = .error cause) :
    ¬ ∃ count < 2 ^ 64, Numeral.Denotes text count := by
  rintro ⟨count, within, denotes⟩
  cases fails.symm.trans (parse_numeral_iff.2 ⟨within, denotes⟩)

/-- Taking an item first and then the others. -/
theorem taken_cons : Taken draft (item :: items) final ↔
    ∃ between, draft.take item = .ok between ∧ Taken between items final := by
  -- What fails is what is not sound, a second cartridge file apart.
  have fails {fault : OptionError} (unsound : ¬ item.Sound)
      (taken : draft.take item = .error fault) : Taken draft (item :: items) final ↔
        ∃ between, draft.take item = .ok between ∧ Taken between items final := by
    refine iff_of_false (fun taken => unsound (taken.sound item List.mem_cons_self)) ?_
    rintro ⟨between, done, -⟩
    cases taken.symm.trans done
  have succeeds {between : Draft} (taken : draft.take item = .ok between) :
      (∃ between, draft.take item = .ok between ∧ Taken between items final) ↔
        Taken between items final := by
    simp only [taken, Except.ok.injEq, exists_eq_left']
  cases item with
  | missing option => exact fails id rfl
  | unknown argument => exact fails id rfl
  | untilSerial =>
    rw [succeeds rfl]
    exact taken_cons_purpose trivial rfl asksPurpose_untilSerial_iff
  | path argument =>
    rw [taken_cons_path]
    cases file : draft.rom with
    | none =>
      rw [succeeds (by rw [Draft.take, file]; rfl), and_iff_right rfl]
    | some other =>
      exact iff_of_false nofun (by simp [Draft.take, file])
  | value option text =>
    cases option with
    | dumpFrame =>
      rw [succeeds rfl]
      exact taken_cons_dumpFrame text
    | frames =>
      cases read : Numeral.parse numberLimit text with
      | error cause =>
        have taken : draft.take (.value .frames text) = .error (.invalidFrames text cause) := by
          simp only [Draft.take, Draft.setValue, read]
        exact fails (not_denotes_of_parse read) taken
      | ok count =>
        have taken : draft.take (.value .frames text) =
            .ok { draft with purpose := .frames count } := by
          simp only [Draft.take, Draft.setValue, read]
        obtain ⟨within, denotes⟩ := parse_numeral_iff.1 read
        rw [succeeds taken]
        exact taken_cons_purpose ⟨count, within, denotes⟩ rfl (asksPurpose_frames_iff denotes)
    | maxCycles =>
      cases read : Numeral.parse numberLimit text with
      | error cause =>
        have taken :
            draft.take (.value .maxCycles text) = .error (.invalidCycles text cause) := by
          simp only [Draft.take, Draft.setValue, read]
        exact fails (not_denotes_of_parse read) taken
      | ok count =>
        have taken : draft.take (.value .maxCycles text) =
            .ok { draft with maxCycles := count } := by
          simp only [Draft.take, Draft.setValue, read]
        obtain ⟨within, denotes⟩ := parse_numeral_iff.1 read
        rw [succeeds taken]
        exact taken_cons_maxCycles ⟨count, within, denotes⟩ rfl (asksCycles_iff denotes)

end

/-- What items make of a draft is what taking one after the other makes of it. -/
theorem foldlM_take_iff {draft final : Draft} {items : List Item} :
    items.foldlM Draft.take draft = .ok final ↔ Taken draft items final := by
  induction items generalizing draft with
  | nil =>
    rw [taken_nil, List.foldlM_nil]
    exact Except.ok.injEq draft final ▸ Iff.rfl
  | cons item items ih =>
    rw [taken_cons, List.foldlM_cons]
    cases draft.take item with
    | ok between =>
      simp only [Except.ok.injEq, exists_eq_left']
      exact ih
    | error fault => exact iff_of_false nofun nofun

/-! ## The command line -/

theorem parse_iff_extend {arguments : List String} {options : Options} :
    parse arguments = .ok options ↔
      Draft.extend {} arguments =
        .ok ⟨some options.rom, options.purpose, options.maxCycles, options.dumpFrame⟩ := by
  unfold parse
  cases Draft.extend {} arguments with
  | error fault => exact iff_of_false nofun nofun
  | ok draft =>
    obtain ⟨_ | rom, purpose, maxCycles, dumpFrame⟩ := draft
    · exact iff_of_false nofun nofun
    · obtain ⟨rom', purpose', maxCycles', dumpFrame'⟩ := options
      simp

theorem taken_empty_iff {items : List Item} {options : Options} :
    Taken {} items ⟨some options.rom, options.purpose, options.maxCycles, options.dumpFrame⟩ ↔
      Accepted items options :=
  ⟨fun ⟨sound, rom, purpose, maxCycles, dumpFrame⟩ => ⟨sound, rom, purpose, maxCycles, dumpFrame⟩,
    fun ⟨sound, rom, purpose, maxCycles, dumpFrame⟩ => ⟨sound, rom, purpose, maxCycles, dumpFrame⟩⟩

theorem parse_iff {arguments : List String} {items : List Item} (reading : Reading arguments items)
    {options : Options} : parse arguments = .ok options ↔ Accepted items options := by
  rw [parse_iff_extend, Draft.extend_eq, reading_iff.1 reading, foldlM_take_iff, taken_empty_iff]

/-! ## Acceptance -/

theorem exists_last {α : Type} {asks : Item → α → Prop} {items : List Item}
    (total : ∀ item ∈ items, ∃ result, asks item result) (default : α) :
    ∃ result, Last asks items default result := by
  unfold Last
  cases last : items.getLast? with
  | none => exact ⟨default, rfl⟩
  | some item => exact total item (List.mem_of_getLast? last)

theorem mem_about {topic : Topic} {item : Item} {items : List Item} :
    item ∈ about topic items ↔ item ∈ items ∧ item.topic = topic := by
  rw [about, List.mem_filter, decide_eq_true_eq]

theorem exists_asksPurpose : ∀ {item : Item}, item.Sound → item.topic = .purpose →
    ∃ purpose, item.AsksPurpose purpose
  | .value .frames _, ⟨_, _, denotes⟩, _ => ⟨_, .frames denotes⟩
  | .untilSerial, _, _ => ⟨_, .untilSerial⟩

theorem exists_asksCycles : ∀ {item : Item}, item.Sound → item.topic = .maxCycles →
    ∃ count, item.AsksCycles count
  | .value .maxCycles _, ⟨_, _, denotes⟩, _ => ⟨_, .maxCycles denotes⟩

theorem exists_asksDump : ∀ {item : Item}, item.Sound → item.topic = .dumpFrame →
    ∃ path, item.AsksDump path
  | .value .dumpFrame path, _, _ => ⟨_, .dumpFrame path⟩

/-- Items that can all be taken and name one cartridge file are accepted. -/
theorem exists_accepted {items : List Item} (sound : ∀ item ∈ items, item.Sound) {path : String}
    (rom : about .rom items = [.path path]) : ∃ options, Accepted items options := by
  have total {α : Type} {asks : Item → α → Prop} {topic : Topic}
      (each : ∀ {item : Item}, item.Sound → item.topic = topic → ∃ result, asks item result)
      (item : Item) (member : item ∈ about topic items) : ∃ result, asks item result := by
    obtain ⟨given, topic⟩ := mem_about.1 member
    exact each (sound item given) topic
  obtain ⟨purpose, asked⟩ := exists_last (total exists_asksPurpose) (.frames 60)
  obtain ⟨maxCycles, bounded⟩ := exists_last (total exists_asksCycles) 200000000
  obtain ⟨dumpFrame, shown⟩ := exists_last (total exists_asksDump) none
  exact ⟨⟨path, purpose, maxCycles, dumpFrame⟩, sound, rom, asked, bounded, shown⟩

/-- Only the order among the items about the same topic matters. -/
theorem accepted_of_same {items other : List Item}
    (same : ∀ topic, about topic items = about topic other) {options : Options}
    (accepted : Accepted items options) : Accepted other options := by
  refine ⟨fun item member => accepted.sound item ?_, same .rom ▸ accepted.rom,
    same .purpose ▸ accepted.purpose, same .maxCycles ▸ accepted.maxCycles,
    same .dumpFrame ▸ accepted.dumpFrame⟩
  have found : item ∈ about item.topic items := same _ ▸ mem_about.2 ⟨member, rfl⟩
  exact (mem_about.1 found).1

/-- There is one way to read the arguments. They are accepted if and only if every option that wants
a value has one, the values that have to be numbers are numerals within the limit, no option is
unknown and one cartridge file is named. Then the file is that one, and each of the other settings
is what the last item about it asks for, or the default. So arguments with the same items about each
topic come to the same, in whatever order the topics are. -/
theorem command_line (arguments : List String) :
    ∃ items, (∀ other, Reading arguments other ↔ other = items) ∧
      ((∃ options, parse arguments = .ok options) ↔
        (∀ item ∈ items, item.Sound) ∧ ∃ path, about .rom items = [.path path]) ∧
      (∀ options, parse arguments = .ok options ↔ Accepted items options) ∧
      ∀ (others : List String) (otherItems : List Item), Reading others otherItems →
        (∀ topic, about topic otherItems = about topic items) →
        ∀ options, parse others = .ok options ↔ parse arguments = .ok options := by
  have reading : Reading arguments (read arguments) := reading_read arguments
  refine ⟨read arguments, fun other => reading_iff.trans eq_comm, ⟨?_, ?_⟩,
    fun options => parse_iff reading, fun others otherItems otherReading same options => ?_⟩
  · rintro ⟨options, parsed⟩
    have accepted := (parse_iff reading).1 parsed
    exact ⟨accepted.sound, options.rom, accepted.rom⟩
  · rintro ⟨sound, path, rom⟩
    obtain ⟨options, accepted⟩ := exists_accepted sound rom
    exact ⟨options, (parse_iff reading).2 accepted⟩
  · rw [parse_iff reading, parse_iff otherReading]
    exact ⟨accepted_of_same same, accepted_of_same fun topic => (same topic).symm⟩

/-- Two orders of the same arguments, where later ones override earlier ones. -/
theorem command_line_overridden :
    let options : Options := ⟨"game.gb", .frames 7, 20, some "--frames"⟩
    parse ["--frames", "5", "game.gb", "--until-serial", "--dump-frame", "--frames", "--max-cycles",
      "20", "--frames", "+007"] = .ok options ∧
    parse ["--max-cycles", "20", "--dump-frame", "--frames", "--frames", "5", "--until-serial",
      "--frames", "+007", "game.gb"] = .ok options := by
  intro options
  have five : Numeral.Denotes "5" (Numeral.value ['5']) :=
    .intro (List.cons_ne_nil _ _) (List.all_eq_true.1 rfl) (.inl rfl)
  have seven : Numeral.Denotes "+007" (Numeral.value ['0', '0', '7']) :=
    .intro (List.cons_ne_nil _ _) (List.all_eq_true.1 rfl) (.inr rfl)
  have twenty : Numeral.Denotes "20" (Numeral.value ['2', '0']) :=
    .intro (List.cons_ne_nil _ _) (List.all_eq_true.1 rfl) (.inl rfl)
  obtain ⟨items, reads, -, parses, reorder⟩ := command_line ["--frames", "5", "game.gb",
    "--until-serial", "--dump-frame", "--frames", "--max-cycles", "20", "--frames", "+007"]
  obtain rfl := (reads _).1 <| .value .frames "5" <| .path (by decide) <| .untilSerial <|
    .value .dumpFrame "--frames" <| .value .maxCycles "20" <| .value .frames "+007" .done
  have sound : ∀ item ∈ [Item.value .frames "5", .path "game.gb", .untilSerial,
      .value .dumpFrame "--frames", .value .maxCycles "20", .value .frames "+007"], item.Sound := by
    simp only [List.forall_mem_cons]
    exact ⟨⟨5, by decide, five⟩, trivial, trivial, trivial, ⟨20, by decide, twenty⟩,
      ⟨7, by decide, seven⟩, nofun⟩
  have parsed :=
    (parses options).2 ⟨sound, rfl, .frames seven, .maxCycles twenty, .dumpFrame "--frames"⟩
  have other : Reading ["--max-cycles", "20", "--dump-frame", "--frames", "--frames", "5",
      "--until-serial", "--frames", "+007", "game.gb"] _ :=
    .value .maxCycles "20" <| .value .dumpFrame "--frames" <| .value .frames "5" <| .untilSerial <|
      .value .frames "+007" <| .path (by decide) .done
  refine ⟨parsed, (reorder _ _ other (fun topic => ?_) options).2 parsed⟩
  cases topic <;> rfl

end DotMatrix.Options
