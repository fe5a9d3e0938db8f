import LayeredTable.Json.Codec
import LayeredTable.OrderedMap.Lemmas
import LayeredTable.Proofs.Json.Reading
import LayeredTable.Proofs.Time.Reading

/-! Interchange restores what it is given. Each writer is paired with its reader, first for texts,
numbers and absent values, then for members by name, and from these for every record and choice. -/
namespace LayeredTable

namespace Json

variable {α : Type}

/-- What is written for `a` is a text that can be read, and it is read as `a`. -/
structure Restores (write : α → Json) (read? : Json → Option α) (a : α) : Prop where
  spelled : WellSpelled (write a)
  read : read? (write a) = some a

variable {write : α → Json} {read? : Json → Option α} {a : α}

theorem Restores.readText (restores : Restores write read? a) :
    (readText (write a).text).bind read? = some a := by
  rw [readText_text restores.spelled, Option.bind_some, restores.read]

section Parts

theorem restores_bool (b : Bool) : Restores .bool toBool? b := ⟨.bool b, rfl⟩

theorem restores_text (s : String) : Restores ofText toText? s where
  spelled := .string _ (takeString_spell s)
  read := by rw [ofText, toText?, textOf?_spell, Option.map_some, String.ofList_toList]

theorem toName?_ofText (s : String) : toName? (ofText s) = some s := (restores_text s).read

/-- Integers are restored between any bounds that hold them. -/
theorem restores_int {least greatest n : Int} (lower : least ≤ n) (upper : n ≤ greatest) :
    Restores ofInt (toInt? least greatest) n := by
  obtain ⟨number, read, same⟩ := toInt?_intChars n
  have within : ∀ c ∈ Text.intChars n, inNumber c = true := by
    intro c member
    rcases Text.mem_intChars n member with rfl | digit
    · rfl
    · simp [inNumber, digit]
  exact {
    spelled := .number _ within (Option.isSome_iff_exists.mpr ⟨number, read⟩)
    read := by simp [ofInt, toInt?, read, same, lower, upper] }

theorem restores_word32 (n : UInt32) : Restores (fun n => .ofNat n.toNat) toUInt32? n := by
  have bound := n.toNat_lt
  have int : Restores ofInt (toInt? 0 4294967295) n.toNat := restores_int (by omega) (by omega)
  refine ⟨int.spelled, ?_⟩
  rw [toUInt32?, show (ofNat n.toNat) = ofInt n.toNat from rfl, int.read]
  simp

theorem restores_word64 (n : UInt64) : Restores (fun n => .ofNat n.toNat) toUInt64? n := by
  have bound := n.toNat_lt
  have int : Restores ofInt (toInt? 0 18446744073709551615) n.toNat :=
    restores_int (by omega) (by omega)
  refine ⟨int.spelled, ?_⟩
  rw [toUInt64?, show (ofNat n.toNat) = ofInt n.toNat from rfl, int.read]
  simp

/-- A value that may be absent is restored if null is not read as a value. -/
theorem restores_option {o : Option α} (absent : read? null = none)
    (value : ∀ a, o = some a → Restores write read? a) :
    Restores (ofOption write) (toOption? read?) o := by
  cases o with
  | none => exact ⟨.null, rfl⟩
  | some a =>
    obtain ⟨spelled, read⟩ := value a rfl
    refine ⟨spelled, ?_⟩
    rw [ofOption]
    unfold toOption?
    split
    · rename_i none
      rw [none, absent] at read
      cases read
    · rw [read, Option.map_some]

end Parts

section Members

variable {members : List (String × Json)}

theorem wellSpelled_ofMembers (values : ∀ member ∈ members, WellSpelled member.2) :
    WellSpelled (ofMembers members) := by
  refine .object _ ?_ ?_
  · intro member listed
    obtain ⟨named, -, rfl⟩ := List.mem_map.mp listed
    exact takeString_spell named.1
  · intro member listed
    obtain ⟨named, there, rfl⟩ := List.mem_map.mp listed
    exact values named there

theorem namedMembers?_ofMembers (members : List (String × Json)) :
    namedMembers? (members.map fun member => (spell member.1, member.2)) = some members := by
  have named (member : String × Json) :
      (do return (String.ofList (← textOf? (spell member.1)), member.2)) = some member := by
    rw [textOf?_spell, Option.bind_eq_bind, Option.bind_some, String.ofList_toList]
    rfl
  simp only [namedMembers?, List.mapM_map, Function.comp_def, named]
  exact List.mapM_pure.trans (by rw [List.map_id']; rfl)

theorem filter_eq_of_nodup (single : (members.map (·.1)).Nodup) (name : String) :
    (members.filter fun member => member.1 == name) =
      ((lookupEntry name members).map fun value => (name, value)).toList := by
  induction members with
  | nil => rfl
  | cons head rest ih =>
    obtain ⟨fresh, single⟩ := List.nodup_cons.mp single
    rw [List.filter_cons, lookupEntry, ih single]
    by_cases here : name = head.1
    · subst here
      have none : lookupEntry head.1 rest = none :=
        lookupEntry_eq_none_iff.mpr fun entry member same =>
          fresh (List.mem_map.mpr ⟨entry, member, same.symm⟩)
      simp [none]
    · simp [here, Ne.symm here]

/-- Of members with different keys a field has the value under its name. -/
theorem fields?_ofMembers (single : (members.map (·.1)).Nodup) (names : List String) :
    (ofMembers members).fields? names = some (names.map fun name => lookupEntry name members) := by
  simp only [ofMembers, fields?, namedMembers?_ofMembers, Option.bind_eq_bind, Option.bind_some,
    filter_eq_of_nodup single]
  refine (congrArg (fun field => names.mapM field) (funext fun name => ?_)).trans List.mapM_pure
  cases lookupEntry name members <;> rfl

theorem onlyHas_ofMembers (members : List (String × Json)) (names : List String) :
    (ofMembers members).onlyHas names = members.all fun member => names.contains member.1 := by
  simp only [ofMembers, onlyHas, namedMembers?_ofMembers, Option.any_some]

end Members
end Json

open Json

namespace FieldType

theorem ofName?_name (t : FieldType) : ofName? t.name = some t := by
  cases t with
  | integer kind => cases kind <;> rfl
  | _ => rfl

theorem restores (t : FieldType) : Restores toJson ofJson? t where
  spelled := (restores_text _).spelled
  read := by rw [ofJson?, toJson, toName?_ofText, Option.bind_some, ofName?_name]

end FieldType

namespace CellId

theorem restores (id : CellId) : Restores toJson ofJson? id where
  spelled := (restores_word64 _).spelled
  read := by
    have word := (restores_word64 id.packed).read
    rw [ofJson?, toJson, word, Option.map_some]

end CellId

namespace Nullable

theorem restores (n : Nullable) : Restores toJson ofJson? n := by
  have replacement : Restores (ofOption ofText) (toOption? toText?) n.replacement :=
    restores_option rfl fun s _ => restores_text s
  constructor
  · refine wellSpelled_ofMembers ?_
    simpa using ⟨(restores_bool n.allowed).spelled, replacement.spelled⟩
  · rw [toJson, ofJson?, fields?_ofMembers (by simp)]
    simp [lookupEntry, optional?, (restores_bool _).read, replacement.read]

end Nullable

namespace Defect

variable (d : Defect)

theorem wellSpelled_keys :
    WellSpelled (.ofMembers (d.keys.entries.map fun entry => (entry.1, .ofText entry.2))) := by
  refine wellSpelled_ofMembers fun member listed => ?_
  obtain ⟨entry, -, rfl⟩ := List.mem_map.mp listed
  exact (restores_text entry.2).spelled

theorem keysOf?_keys :
    keysOf? (.ofMembers (d.keys.entries.map fun entry => (entry.1, .ofText entry.2))) =
      some d.keys := by
  simp only [keysOf?, ofMembers, namedMembers?_ofMembers, Option.bind_eq_bind, Option.bind_some,
    List.mapM_map, Function.comp_def, (restores_text _).read]
  rw [List.mapM_pure, List.map_id']
  exact congrArg some d.keys.ofList_entries

theorem restores : Restores toJson ofJson? d := by
  have place (o : Option UInt32) :
      Restores (ofOption (.ofNat ·.toNat)) (toOption? toUInt32?) o :=
    restores_option rfl fun n _ => restores_word32 n
  constructor
  · refine wellSpelled_ofMembers ?_
    simpa using ⟨(place d.column).spelled, (place d.row).spelled,
      (restores_text d.message).spelled, d.wellSpelled_keys⟩
  · rw [toJson, ofJson?, fields?_ofMembers (by simp)]
    simp [lookupEntry, optional?, (place _).read, (restores_text _).read, keysOf?_keys]

end Defect

namespace Duration

theorem of?_eq_some (d : Duration) : of? d.seconds d.nanos = some d := by
  have below := UInt32.lt_iff_toNat_lt.mp d.below
  have whole : d.nanos.toNat / 1000000000 = 0 := Nat.div_eq_of_lt below
  have rest : d.nanos % 1000000000 = d.nanos := UInt32.toNat_inj.mp (by
    rw [UInt32.toNat_mod]
    exact Nat.mod_eq_of_lt below)
  simp only [of?, whole, Nat.add_zero, d.seconds.toNat_lt_size, if_true, rest, UInt64.ofNat_toNat]

theorem restores (d : Duration) : Restores toJson ofJson? d := by
  constructor
  · refine wellSpelled_ofMembers ?_
    simpa using ⟨(restores_word64 d.seconds).spelled, (restores_word32 d.nanos).spelled⟩
  · rw [toJson, ofJson?, onlyHas_ofMembers, fields?_ofMembers (by simp)]
    simp [lookupEntry, (restores_word64 _).read, (restores_word32 _).read, of?_eq_some]

end Duration

namespace Policy

theorem restores_mode (m : Mode) : Restores Mode.toJson Mode.ofJson? m where
  spelled := (restores_text _).spelled
  read := by
    rw [Mode.ofJson?, Mode.toJson, toName?_ofText]
    cases m <;> rfl

theorem restores (p : Policy) : Restores toJson ofJson? p := by
  have deadline := restores_option (o := p.deadline) rfl fun d _ => d.restores
  constructor
  · refine wellSpelled_ofMembers ?_
    simpa using ⟨(restores_mode p.mode).spelled, deadline.spelled,
      (restores_bool p.recordRowDefects).spelled⟩
  · rw [toJson, ofJson?, fields?_ofMembers (by simp)]
    simp [lookupEntry, optional?, (restores_mode _).read, deadline.read, (restores_bool _).read]

end Policy

namespace Value

variable {v : Value}

theorem content?_eq_none (absent : v.content? = none) : v = .null := by
  cases v <;> first | rfl | cases absent

/-- What stands beside the kind is read as the value, floating-point numbers apart. -/
theorem ofContent?_content {content : Json} (exact : v.kind.isFloat = false)
    (present : v.content? = some content) :
    WellSpelled content ∧ ofContent? v.kind content = some v := by
  cases v with
  | null => cases present
  | bool b =>
    cases present
    exact ⟨(restores_bool b).spelled, rfl⟩
  | integer kind n admitted =>
    cases present
    have int := restores_int admitted.1 admitted.2
    refine ⟨int.spelled, ?_⟩
    simp [ofContent?, Value.kind, int.read, ofInt?, admitted]
  | float32 => cases exact
  | float64 => cases exact
  | text s =>
    cases present
    refine ⟨(restores_text s).spelled, ?_⟩
    simp [ofContent?, Value.kind, (restores_text s).read]
  | instant t =>
    cases present
    have text := restores_text t.interchangeText
    refine ⟨text.spelled, ?_⟩
    simp [ofContent?, Value.kind, text.read, t.readInterchange_interchangeText]

theorem restores (exact : v.kind.isFloat = false) : Restores toJson ofJson? v := by
  have kind := v.kind.restores
  cases present : v.content? with
  | none =>
    obtain rfl := content?_eq_none present
    constructor
    · refine wellSpelled_ofMembers ?_
      simpa [present] using kind.spelled
    · rw [toJson, ofJson?, present, fields?_ofMembers (by simp)]
      simp [lookupEntry, kindOf?, ofMembers, kind.read]
      rfl
  | some content =>
    obtain ⟨spelled, read⟩ := ofContent?_content exact present
    constructor
    · refine wellSpelled_ofMembers ?_
      simpa [present] using ⟨kind.spelled, spelled⟩
    · rw [toJson, ofJson?, present, fields?_ofMembers (by simp)]
      simp [lookupEntry, kindOf?, ofMembers, kind.read, read]

end Value

namespace Json

/-- Whatever is written for interchange is read back as it was: types, identifiers, admissions of
null, defects and policies, and values of every kind but the floating-point ones, of which not all
have a text. -/
theorem interchange_restores (type : FieldType) (id : CellId) (nullable : Nullable)
    (defect : Defect) (policy : Policy) (value : Value) (exact : value.kind.isFloat = false) :
    (readText type.toJson.text).bind FieldType.ofJson? = some type ∧
    (readText id.toJson.text).bind CellId.ofJson? = some id ∧
    (readText nullable.toJson.text).bind Nullable.ofJson? = some nullable ∧
    (readText defect.toJson.text).bind Defect.ofJson? = some defect ∧
    (readText policy.toJson.text).bind Policy.ofJson? = some policy ∧
    (readText value.toJson.text).bind Value.ofJson? = some value :=
  ⟨type.restores.readText, id.restores.readText, nullable.restores.readText,
    defect.restores.readText, policy.restores.readText, (Value.restores exact).readText⟩

/-- Half a second into a leap second, beside the longest deadline and a message that has to be
escaped. -/
theorem interchange_restores_leap_second :
    let defect : Defect := { message := "\"\\\n\u0000", keys := .ofList [("", "\t"), ("\"", "/")] }
    let policy : Policy := .hardened ⟨18446744073709551615, 999999999, by decide⟩
    let value : Value := .instant ⟨1483228799, 1500000000, by decide⟩
    value.kind.isFloat = false ∧
    (readText defect.toJson.text).bind Defect.ofJson? = some defect ∧
    (readText policy.toJson.text).bind Policy.ofJson? = some policy ∧
    (readText value.toJson.text).bind Value.ofJson? = some value :=
  ⟨rfl, (interchange_restores .custom (.of 1 4294967295) {} _ _ _ rfl).2.2.2⟩

end Json
end LayeredTable
