import Mathlib.Data.List.Forall2
import KeyValueServer.Settings
import KeyValueServer.Proofs.Json.Reader
import KeyValueServer.Proofs.Json.Values
import KeyValueServer.Proofs.Json.Writer
import KeyValueServer.Proofs.Text.Encoding

/-!
# Which settings a file gives

A settings file is an object. It lists some of the settings by name, each once and with a value that
says what is chosen (`Settings.Choice`), and the others have their defaults. What else it lists, and
in which order, makes no difference, as long as the whole text follows the grammar `Json.Written`.

## Main definitions

* `Settings.Choice`: what is chosen for some of the settings.
* `Settings.Choice.Listed`: the members of an object list these settings and none of the others.
* `Settings.Holds`: a text is an object of some members.

## Main results

* `Settings.ofMembers?_eq_some_iff`, `Settings.ofMembers?_perm`: settings from the members of an
  object.
* `Settings.holds_jsonText`: the settings as they are written.
* `Settings.load_exact`: settings from a file.
-/

namespace KeyValueServer.Settings

open Json

/-! ### Values -/

/-- `SaysText value text`: the tree is a string that says the text. -/
def SaysText (value : Json) (text : String) : Prop :=
  ∃ points, value = .string points ∧ Spells points text.toList

/-- `SaysNumber value n`: the tree is the decimal digits of the number. -/
def SaysNumber (value : Json) (n : Nat) : Prop := value = .number (Nat.toDigits 10 n)

/-- `SaysPort value port`: the tree is the decimal digits of the port. -/
def SaysPort (value : Json) (port : UInt16) : Prop := SaysNumber value port.toNat

/-- `SaysWord value word`: the tree is the decimal digits of the word. -/
def SaysWord (value : Json) (word : UInt64) : Prop := SaysNumber value word.toNat

variable {value : Json} {t : List Char}

/-- **`text?` reads the strings that say a text.** -/
theorem text?_eq_some_iff (h : Written (.value value) t) {text : String} :
    value.text? = some text ↔ SaysText value text := by
  cases h with
  | string hbody =>
      rw [text?, textOf?_eq_some_iff hbody, SaysText]
      constructor
      · exact fun hspells => ⟨_, rfl, hspells⟩
      · rintro ⟨_, ⟨⟩, hspells⟩
        exact hspells
  | _ => simp [text?, SaysText]

/-- **`naturalBelow?` reads the decimal digits of a number.** -/
theorem naturalBelow?_eq_some_iff (h : Written (.value value) t) {bound n : Nat} :
    value.naturalBelow? bound = some n ↔ SaysNumber value n ∧ n < bound := by
  cases h with
  | number hnumber =>
      rw [naturalBelow?_number_eq_some_iff hnumber, SaysNumber, Json.number.injEq]
  | _ => simp [naturalBelow?, SaysNumber]

/-- `port?` reads the decimal digits of a port. -/
theorem port?_eq_some_iff (h : Written (.value value) t) {port : UInt16} :
    port? value = some port ↔ SaysPort value port := by
  rw [port?, Option.map_eq_some_iff, SaysPort]
  constructor
  · rintro ⟨n, hn, rfl⟩
    obtain ⟨hsaid, hlt⟩ := (naturalBelow?_eq_some_iff h).1 hn
    rwa [UInt16.toNat_ofNat_of_lt' hlt]
  · intro hsaid
    refine ⟨port.toNat, (naturalBelow?_eq_some_iff h).2 ⟨hsaid, port.toNat_lt⟩, ?_⟩
    exact UInt16.ofNat_toNat

/-- `word?` reads the decimal digits of a word. -/
theorem word?_eq_some_iff (h : Written (.value value) t) {word : UInt64} :
    word? value = some word ↔ SaysWord value word := by
  rw [word?, Option.map_eq_some_iff, SaysWord]
  constructor
  · rintro ⟨n, hn, rfl⟩
    obtain ⟨hsaid, hlt⟩ := (naturalBelow?_eq_some_iff h).1 hn
    rwa [UInt64.toNat_ofNat_of_lt' hlt]
  · intro hsaid
    refine ⟨word.toNat, (naturalBelow?_eq_some_iff h).2 ⟨hsaid, word.toNat_lt⟩, ?_⟩
    exact UInt64.ofNat_toNat

/-! ### One setting -/

/-- `Lists members name Says choice`: the members list the name once, with a value that says what is
chosen, and not at all if nothing is. -/
def Lists {α : Type} (members : List (String × Json)) (name : String) (Says : Json → α → Prop) :
    Option α → Prop
  | none => ∀ m ∈ members, m.1 ≠ name
  | some a => ∃ before value after, members = before ++ (name, value) :: after ∧ Says value a ∧
      ∀ m ∈ before ++ after, m.1 ≠ name

variable {α : Type} {members members' : List (String × Json)} {name : String}
  {Says : Json → α → Prop} {choice : Option α} {read : Json → Option α} {default : α}

/-- `filter` by a name passes over members of other names. -/
theorem filter_eq_nil (h : ∀ m ∈ members, m.1 ≠ name) :
    members.filter (fun m => m.1 == name) = [] :=
  List.filter_eq_nil_iff.2 fun m hm => mt beq_iff_eq.1 (h m hm)

/-- `filter` by a name keeps a member of that name. -/
theorem filter_cons_self (value : Json) (rest : List (String × Json)) :
    ((name, value) :: rest).filter (fun m => m.1 == name) =
      (name, value) :: rest.filter (fun m => m.1 == name) := by
  rw [List.filter_cons, if_pos (beq_self_eq_true name)]

/-- `filter` by a name keeps the only member of that name. -/
theorem filter_eq_singleton {before after : List (String × Json)}
    (h : ∀ m ∈ before ++ after, m.1 ≠ name) :
    (before ++ (name, value) :: after).filter (fun m => m.1 == name) = [(name, value)] := by
  have hbefore := filter_eq_nil fun m hm => h m (List.mem_append_left after hm)
  have hafter := filter_eq_nil fun m hm => h m (List.mem_append_right before hm)
  rw [List.filter_append, hbefore, List.nil_append, filter_cons_self, hafter]

/-- **`named?` is what the members list under a name**, or else the default. -/
theorem named?_eq_some_iff (hread : ∀ m ∈ members, ∀ a, read m.2 = some a ↔ Says m.2 a) {a : α} :
    named? members name read default = some a ↔
      ∃ choice, Lists members name Says choice ∧ a = choice.getD default := by
  constructor
  · intro h
    rw [named?] at h
    split at h
    · rename_i hfilter
      cases h
      refine ⟨none, fun m hm hname => ?_, rfl⟩
      exact List.filter_eq_nil_iff.1 hfilter m hm (beq_iff_eq.2 hname)
    · rename_i member hfilter
      obtain ⟨before, after, rfl, hbefore, hname, hafter⟩ := List.filter_eq_cons_iff.1 hfilter
      have hmem : member ∈ before ++ member :: after :=
        List.mem_append_right before List.mem_cons_self
      refine ⟨some a, ⟨before, member.2, after, ?_, (hread member hmem a).1 h, ?_⟩, rfl⟩
      · rw [← beq_iff_eq.1 hname]
      · intro m hm hother
        rcases List.mem_append.1 hm with hm | hm
        · exact hbefore m hm (beq_iff_eq.2 hother)
        · exact List.filter_eq_nil_iff.1 hafter m hm (beq_iff_eq.2 hother)
    · cases h
  · rintro ⟨none | a, hlists, rfl⟩
    · rw [named?, filter_eq_nil hlists]
    · obtain ⟨before, value, after, rfl, hsaid, hothers⟩ := hlists
      have hmem : (name, value) ∈ before ++ (name, value) :: after :=
        List.mem_append_right before List.mem_cons_self
      rw [named?, filter_eq_singleton hothers]
      exact (hread _ hmem a).2 hsaid

/-- `named?` does not depend on the order of the members. -/
theorem named?_perm (h : members.Perm members') :
    named? members name read default = named? members' name read default := by
  have hperm := h.filter fun member => member.1 == name
  rw [named?, named?]
  generalize members.filter (fun member => member.1 == name) = found at hperm ⊢
  generalize members'.filter (fun member => member.1 == name) = found' at hperm ⊢
  have hlength := hperm.length_eq
  match found, found' with
  | [], [] => rfl
  | [m], [m'] => rw [List.singleton_perm_singleton.1 hperm]
  | _ :: _ :: _, _ :: _ :: _ => rfl
  | [], _ :: _ | _ :: _, [] | [_], _ :: _ :: _ | _ :: _ :: _, [_] => simp at hlength

/-- `Lists` allows a name once. -/
theorem Lists.not_repeated (h : Lists members name Says choice) (v w : Json) :
    ¬ [(name, v), (name, w)].Sublist members := by
  intro htwo
  have hfound := htwo.filter fun m => m.1 == name
  rw [filter_cons_self, filter_cons_self] at hfound
  have hlength := hfound.length_le
  cases choice with
  | none =>
      rw [filter_eq_nil h] at hlength
      simp at hlength
  | some a =>
      obtain ⟨before, value, after, rfl, -, hothers⟩ := h
      rw [filter_eq_singleton hothers] at hlength
      simp at hlength

/-- `Lists` allows values that say something. -/
theorem Lists.exists_said (h : Lists members name Says choice) (hmem : (name, value) ∈ members) :
    ∃ a, Says value a := by
  cases choice with
  | none => exact absurd rfl (h _ hmem)
  | some a =>
      obtain ⟨before, v, after, rfl, hsaid, hothers⟩ := h
      rcases List.mem_append.1 hmem with hbefore | hcons
      · exact absurd rfl (hothers _ (List.mem_append_left after hbefore))
      · rcases List.mem_cons.1 hcons with heq | hafter
        · cases heq
          exact ⟨a, hsaid⟩
        · exact absurd rfl (hothers _ (List.mem_append_right before hafter))

/-! ### All settings -/

/-- A `Choice` is what is chosen for some of the settings. -/
structure Choice where
  /-- The address to listen on. -/
  host : Option String
  /-- The port to listen on. -/
  port : Option UInt16
  /-- The time between two cycles of expiration. -/
  cronInterval : Option UInt64
  /-- How many deadlines a cycle of expiration samples. -/
  expireCheckCount : Option UInt64
  /-- Which messages are logged. -/
  logLevel : Option String

/-- `c.settings` is what is chosen, and the defaults of the other settings. -/
def Choice.settings (c : Choice) : Settings where
  host := c.host.getD initial.host
  port := c.port.getD initial.port
  cronInterval := c.cronInterval.getD initial.cronInterval
  expireCheckCount := c.expireCheckCount.getD initial.expireCheckCount
  logLevel := c.logLevel.getD initial.logLevel

/-- `c.Listed members`: the members list what is chosen, and none of the other settings. They may
list anything under other names. -/
structure Choice.Listed (c : Choice) (members : List (String × Json)) : Prop where
  host : Lists members "host" SaysText c.host
  port : Lists members "port" SaysPort c.port
  cronInterval : Lists members "cron_interval_ms" SaysWord c.cronInterval
  expireCheckCount : Lists members "expire_check_count" SaysWord c.expireCheckCount
  logLevel : Lists members "log_level" SaysText c.logLevel

/-- `names` of the settings. -/
def names : List String :=
  ["host", "port", "cron_interval_ms", "expire_check_count", "log_level"]

/-- `bounds` are the names of the settings that are numbers, with a bound that these stay below. -/
def bounds : List (String × Nat) :=
  [("port", 2 ^ 16), ("cron_interval_ms", 2 ^ 64), ("expire_check_count", 2 ^ 64)]

variable {s : Settings} {c : Choice}

/-- **`ofMembers?` gives what the members list**, and the defaults of the other settings. -/
theorem ofMembers?_eq_some_iff (hwritten : ∀ m ∈ members, ∃ t, Written (.value m.2) t) :
    ofMembers? members = some s ↔ ∃ c : Choice, c.Listed members ∧ s = c.settings := by
  have htext : ∀ m ∈ members, ∀ text, m.2.text? = some text ↔ SaysText m.2 text := fun m hm _ =>
    have ⟨_, ht⟩ := hwritten m hm
    text?_eq_some_iff ht
  have hport : ∀ m ∈ members, ∀ port, port? m.2 = some port ↔ SaysPort m.2 port := fun m hm _ =>
    have ⟨_, ht⟩ := hwritten m hm
    port?_eq_some_iff ht
  have hword : ∀ m ∈ members, ∀ word, word? m.2 = some word ↔ SaysWord m.2 word := fun m hm _ =>
    have ⟨_, ht⟩ := hwritten m hm
    word?_eq_some_iff ht
  simp only [ofMembers?, Option.bind_eq_bind, Option.bind_eq_some_iff, Option.some.injEq,
    named?_eq_some_iff htext, named?_eq_some_iff hport, named?_eq_some_iff hword]
  constructor
  · rintro ⟨_, ⟨host, hhost, rfl⟩, _, ⟨port, hport, rfl⟩, _, ⟨cronInterval, hcron, rfl⟩, _,
      ⟨expireCheckCount, hcheck, rfl⟩, _, ⟨logLevel, hlog, rfl⟩, rfl⟩
    exact ⟨⟨host, port, cronInterval, expireCheckCount, logLevel⟩,
      ⟨hhost, hport, hcron, hcheck, hlog⟩, rfl⟩
  · rintro ⟨c, hc, rfl⟩
    exact ⟨_, ⟨_, hc.host, rfl⟩, _, ⟨_, hc.port, rfl⟩, _, ⟨_, hc.cronInterval, rfl⟩, _,
      ⟨_, hc.expireCheckCount, rfl⟩, _, ⟨_, hc.logLevel, rfl⟩, rfl⟩

/-- **`ofMembers?` does not depend on the order of the members.** -/
theorem ofMembers?_perm (h : members.Perm members') : ofMembers? members = ofMembers? members' := by
  simp only [ofMembers?, named?_perm h]

/-- `Listed` settings do not stand there twice. -/
theorem Choice.Listed.not_repeated (h : c.Listed members) (hname : name ∈ names) (v w : Json) :
    ¬ [(name, v), (name, w)].Sublist members := by
  simp only [names, List.mem_cons, List.not_mem_nil, or_false] at hname
  rcases hname with rfl | rfl | rfl | rfl | rfl
  · exact h.host.not_repeated v w
  · exact h.port.not_repeated v w
  · exact h.cronInterval.not_repeated v w
  · exact h.expireCheckCount.not_repeated v w
  · exact h.logLevel.not_repeated v w

/-- `Listed` numbers are in the range of their setting. -/
theorem Choice.Listed.exists_digits (h : c.Listed members) {bound : Nat}
    (hbound : (name, bound) ∈ bounds) {literal : List Char}
    (hmem : (name, .number literal) ∈ members) : ∃ n < bound, literal = Nat.toDigits 10 n := by
  simp only [bounds, List.mem_cons, Prod.mk.injEq, List.not_mem_nil, or_false] at hbound
  rcases hbound with ⟨rfl, rfl⟩ | ⟨rfl, rfl⟩ | ⟨rfl, rfl⟩
  · obtain ⟨port, hsaid⟩ := h.port.exists_said hmem
    exact ⟨port.toNat, port.toNat_lt, Json.number.inj hsaid⟩
  · obtain ⟨word, hsaid⟩ := h.cronInterval.exists_said hmem
    exact ⟨word.toNat, word.toNat_lt, Json.number.inj hsaid⟩
  · obtain ⟨word, hsaid⟩ := h.expireCheckCount.exists_said hmem
    exact ⟨word.toNat, word.toNat_lt, Json.number.inj hsaid⟩

/-! ### Objects -/

/-- `Holds text members`: the text is an object of these members, with blanks around it. The names
are texts, and may be spelled with escapes. -/
def Holds (text : String) (members : List (String × Json)) : Prop :=
  ∃ ms, Written (.padded (.object ms)) text.toList ∧
    List.Forall₂ (fun m member => Spells m.1 member.1.toList ∧ m.2 = member.2) ms members

variable {text : String}

/-- `namedMembers?` reads names as the texts that they spell. -/
theorem namedMembers?_eq {ms : List (List Nat × Json)}
    (h : List.Forall₂ (fun m member => Spells m.1 member.1.toList ∧ m.2 = member.2) ms members) :
    namedMembers? ms = some members := by
  induction h with
  | nil => rfl
  | @cons m member ms members hm _ ih =>
      obtain ⟨hname, hvalue⟩ := hm
      have htext : textOf? m.1 = some member.1 := by
        rw [textOf?, hname.pairs?_eq, Option.map_some, String.ofList_toList]
      rw [namedMembers?, htext, ih, hvalue]
      rfl

/-- **`Settings.parse?` reads an object as its members.** -/
theorem Holds.parse?_eq (h : Holds text members) : parse? text = ofMembers? members := by
  obtain ⟨ms, hwritten, hnames⟩ := h
  rw [parse?, parse?_eq_some_iff.2 hwritten, Option.bind_some, ofJson?, namedMembers?_eq hnames,
    Option.bind_some]

/-- `Holds` text has members that are written. -/
theorem Holds.written (h : Holds text members) : ∀ m ∈ members, ∃ t, Written (.value m.2) t := by
  obtain ⟨ms, hwritten, hnames⟩ := h
  intro member hmember
  have hvalues : ms.map Prod.snd = members.map Prod.snd := by
    rw [← List.forall₂_eq_eq_eq, List.forall₂_map_left_iff, List.forall₂_map_right_iff]
    exact hnames.imp fun _ _ h => h.2
  have hmem : member.2 ∈ ms.map Prod.snd := hvalues ▸ List.mem_map_of_mem hmember
  obtain ⟨m, hm, hvalue⟩ := List.mem_map.1 hmem
  generalize text.toList = t at hwritten
  cases hwritten with
  | padded _ hobject _ =>
      cases hobject with
      | emptyObject => cases hm
      | object hmembers => exact hvalue ▸ (hmembers.of_mem_members hm).2

/-- `membersText written` is the text of an object. -/
def membersText (written : List WrittenMember) : String :=
  String.ofList (objectText (written.map fun e => (e.name, e.text)))

/-- **`membersText` holds its members.** -/
theorem holds_membersText (e : WrittenMember) (rest : List WrittenMember) :
    Holds (membersText (e :: rest)) ((e :: rest).map fun e => (e.name, e.value)) := by
  refine ⟨(e :: rest).map WrittenMember.member, ?_, ?_⟩
  · rw [membersText, String.toList_ofList]
    exact (written_objectText e rest).bare
  · rw [List.forall₂_map_left_iff, List.forall₂_map_right_iff, List.forall₂_same]
    exact fun e _ => ⟨spells_map_toNat e.name.toList, rfl⟩

/-! ### The settings as they are written -/

/-- `textMember name text` is a setting that is a text. -/
def textMember (name text : String) : WrittenMember :=
  ⟨name, .string (text.toList.map Char.toNat), quoted text, .string (body_escaped text.toList)⟩

/-- `numberMember name n` is a setting that is a number. -/
def numberMember (name : String) (n : Nat) : WrittenMember :=
  ⟨name, .number (naturalText n), naturalText n, .number (isNumber_naturalText n)⟩

/-- `s.laterMembers` are the settings after the address. -/
def laterMembers (s : Settings) : List WrittenMember :=
  [numberMember "port" s.port.toNat, numberMember "cron_interval_ms" s.cronInterval.toNat,
    numberMember "expire_check_count" s.expireCheckCount.toNat, textMember "log_level" s.logLevel]

/-- `s.listing` are the settings as the members of an object. -/
def listing (s : Settings) : List (String × Json) :=
  (textMember "host" s.host :: s.laterMembers).map fun e => (e.name, e.value)

/-- **`jsonText` is an object** of all settings. -/
theorem holds_jsonText (s : Settings) : Holds s.jsonText s.listing :=
  holds_membersText (textMember "host" s.host) s.laterMembers

/-- `s.chosen` is the choice of all settings. -/
def chosen (s : Settings) : Choice :=
  ⟨some s.host, some s.port, some s.cronInterval, some s.expireCheckCount, some s.logLevel⟩

/-- `listing` lists the choice of all settings. -/
theorem chosen_listed (s : Settings) : (chosen s).Listed s.listing := by
  have htext : ∀ text : String, SaysText (.string (text.toList.map Char.toNat)) text := fun text =>
    ⟨_, rfl, spells_map_toNat text.toList⟩
  exact {
    host := ⟨[], _, _, rfl, htext _, by simp [laterMembers, textMember, numberMember]⟩
    port := ⟨[_], _, _, rfl, rfl, by simp [textMember, numberMember]⟩
    cronInterval := ⟨[_, _], _, _, rfl, rfl, by simp [textMember, numberMember]⟩
    expireCheckCount := ⟨[_, _, _], _, _, rfl, rfl, by simp [textMember, numberMember]⟩
    logLevel := ⟨[_, _, _, _], _, _, rfl, htext _, by simp [textMember, numberMember]⟩
  }

/-! ### Files -/

/-- `load` of a file that holds a text gives what is read from the text. -/
theorem load_ofText (text : String) :
    load (.ok (Bytes.ofText text)) = (parse? text).elim (.error .malformed) .ok := by
  rw [load, Utf8.text?_eq_some_iff.2 rfl]
  dsimp only
  cases parse? text <;> rfl

/-- `load` of a file that holds a text gives settings, or is malformed. -/
theorem load_eq_malformed (h : ∀ s, parse? text ≠ some s) :
    load (.ok (Bytes.ofText text)) = .error .malformed := by
  rw [load_ofText, Option.eq_none_iff_forall_ne_some.2 h, Option.elim_none]

/-- **`load` of an object** gives what it lists, and the defaults of the other settings. -/
theorem Holds.load_eq_ok_iff (h : Holds text members) :
    load (.ok (Bytes.ofText text)) = .ok s ↔ ∃ c : Choice, c.Listed members ∧ s = c.settings := by
  rw [load_ofText, h.parse?_eq, ← ofMembers?_eq_some_iff h.written]
  cases ofMembers? members with
  | none => simp
  | some s' => simp

/-- **`load` of an object that lists no choice** is malformed. -/
theorem Holds.load_eq_malformed (h : Holds text members)
    (hnone : ∀ c : Choice, ¬ c.Listed members) :
    load (.ok (Bytes.ofText text)) = .error .malformed := by
  refine Settings.load_eq_malformed fun s hs => ?_
  rw [h.parse?_eq, ofMembers?_eq_some_iff h.written] at hs
  obtain ⟨c, hc, -⟩ := hs
  exact hnone c hc

/-- **Settings and files.** `load` of the `jsonText` of settings gives them back. Of a text that
`Holds` members it gives what they list and the defaults of the settings that they do not list, in
whatever order and with whatever else they list; but it gives none if they list a setting twice, or
a number that is not in the range of its setting. Neither does it of a text that is no value of the
grammar, or of a file that holds no text. -/
theorem load_exact :
    (∀ s : Settings, load (.ok (Bytes.ofText s.jsonText)) = .ok s) ∧
      (∀ text members, Holds text members →
        (∀ s, load (.ok (Bytes.ofText text)) = .ok s ↔
          ∃ c : Choice, c.Listed members ∧ s = c.settings) ∧
        (∀ text' members', Holds text' members' → members.Perm members' →
          load (.ok (Bytes.ofText text')) = load (.ok (Bytes.ofText text))) ∧
        (∀ name ∈ names, ∀ v w, [(name, v), (name, w)].Sublist members →
          load (.ok (Bytes.ofText text)) = .error .malformed) ∧
        (∀ name bound literal, (name, bound) ∈ bounds → (name, .number literal) ∈ members →
          (∀ n < bound, literal ≠ Nat.toDigits 10 n) →
          load (.ok (Bytes.ofText text)) = .error .malformed)) ∧
      (∀ text : String, (∀ v, ¬ Written (.padded v) text.toList) →
        load (.ok (Bytes.ofText text)) = .error .malformed) ∧
      ∀ bytes, (∀ text, bytes ≠ Bytes.ofText text) → load (.ok bytes) = .error .notText := by
  refine ⟨fun s => ?_, fun text members h => ⟨fun s => h.load_eq_ok_iff, ?_, ?_, ?_⟩, ?_, ?_⟩
  · exact (holds_jsonText s).load_eq_ok_iff.2 ⟨chosen s, chosen_listed s, rfl⟩
  · intro text' members' h' hperm
    rw [load_ofText, load_ofText, h.parse?_eq, h'.parse?_eq, ofMembers?_perm hperm]
  · intro name hname v w htwo
    exact h.load_eq_malformed fun c hc => hc.not_repeated hname v w htwo
  · intro name bound literal hbound hmem hdigits
    refine h.load_eq_malformed fun c hc => ?_
    obtain ⟨n, hn, hliteral⟩ := hc.exists_digits hbound hmem
    exact hdigits n hn hliteral
  · intro text hnone
    refine load_eq_malformed fun s hs => ?_
    obtain ⟨v, hv, -⟩ := Option.bind_eq_some_iff.1 hs
    exact hnone v (parse?_eq_some_iff.1 hv)
  · intro bytes hnone
    have htext : Utf8.text? bytes = none :=
      Option.eq_none_iff_forall_ne_some.2 fun text htext =>
        hnone text (Utf8.text?_eq_some_iff.1 htext)
    rw [load, htext]

/-- `noteMember` is a member that is no setting. -/
def noteMember : WrittenMember :=
  ⟨"note", .array [.null], ['[', 'n', 'u', 'l', 'l', ']'], .array (.lastItem Written.nullWord.bare)⟩

/-- A port beside an array, in either order; a port that is listed twice; a port past the last; a
brace that is left open; and a byte that begins no character. -/
theorem load_exact_of_port :
    load (.ok (Bytes.ofText (membersText [noteMember, numberMember "port" 7000]))) =
        .ok { initial with port := 7000 } ∧
      load (.ok (Bytes.ofText (membersText [numberMember "port" 7000, noteMember]))) =
        load (.ok (Bytes.ofText (membersText [noteMember, numberMember "port" 7000]))) ∧
      load (.ok (Bytes.ofText (membersText [numberMember "port" 1, numberMember "port" 2]))) =
        .error .malformed ∧
      load (.ok (Bytes.ofText (membersText [numberMember "port" 65536]))) = .error .malformed ∧
      load (.ok (Bytes.ofText (String.ofList ['\x7b']))) = .error .malformed ∧
      load (.ok [0xFF]) = .error .notText := by
  obtain ⟨-, hobject, hgrammar, hbytes⟩ := load_exact
  have hport : Choice.Listed ⟨none, some 7000, none, none, none⟩
      [("note", .array [.null]), ("port", .number (naturalText 7000))] :=
    ⟨by simp [Lists], ⟨[_], _, [], rfl, rfl, by simp⟩, by simp [Lists], by simp [Lists],
      by simp [Lists]⟩
  refine ⟨((hobject _ _ (holds_membersText _ _)).1 _).2 ⟨_, hport, rfl⟩,
    (hobject _ _ (holds_membersText _ _)).2.1 _ _ (holds_membersText _ _) (.swap ..),
    (hobject _ _ (holds_membersText _ _)).2.2.1 "port" (by simp [names]) _ _ (.refl _),
    (hobject _ _ (holds_membersText _ _)).2.2.2 "port" _ _ List.mem_cons_self List.mem_cons_self ?_,
    hgrammar _ fun v hv => ?_, hbytes _ fun text htext => ?_⟩
  · intro n hn hdigits
    have hvalue := congrArg (Nat.ofDigitChars 10 · 0) hdigits
    simp only [naturalText, Nat.ofDigitChars_ten_toDigits] at hvalue
    omega
  · have hread := parse?_eq_some_iff.2 hv
    rw [Json.parse?, String.toList_ofList] at hread
    cases hread
  · cases Utf8.text?_eq_some_iff.2 htext

end KeyValueServer.Settings
