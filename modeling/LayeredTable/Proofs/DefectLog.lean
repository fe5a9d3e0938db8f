import LayeredTable.Defect
import LayeredTable.OrderedMap.Lemmas
import LayeredTable.Proofs.Text.Numeral

/-! The defect log and its report. A line of the report holds under each header what the defect has
there, and a defect can be read back from its line as long as no key has the name of a base header:
such a key takes the place of the column, the row or the message. -/
namespace LayeredTable

namespace Defect

def place (d : Defect) (offset : UInt32) (header : String) : String :=
  if header = "Column" then DefectLog.coordinate offset d.column
  else if header = "Row" then DefectLog.coordinate offset d.row
  else if header = "Message" then d.message
  else ""

/-- What a line of the report shows under a header. A key goes before all else. -/
def shown (d : Defect) (offset : UInt32) (header : String) : String :=
  (d.keys.get? header).getD (d.place offset header)

/-- A defect without the keys whose value is the empty text, which a report does not show. -/
def visible (d : Defect) : Defect :=
  { d with keys := .ofList (d.keys.entries.filter fun entry => entry.2 ≠ "") }

/-- Whether no key has the name of a base header. -/
def Plain (d : Defect) : Prop := ∀ name ∈ DefectLog.baseHeaders, d.keys.get? name = none

def coordinate? (offset : UInt32) (cell : String) : Option UInt32 :=
  (Text.readNat cell.toList).map fun n => .ofNat (n - offset.toNat)

/-- The defect that a line of the report stands for, where `names` are the headers after the base
headers. An empty cell stands for no key. -/
def ofLine? (names : List String) (offset : UInt32) : List String → Option Defect
  | column :: row :: message :: values => some {
      column := coordinate? offset column
      row := coordinate? offset row
      message
      keys := .ofList ((names.zip values).filter fun entry => entry.2 ≠ "") }
  | _ => none

theorem coordinate?_coordinate (offset : UInt32) (place : Option UInt32) :
    coordinate? offset (DefectLog.coordinate offset place) = place := by
  cases place with
  | none => rfl
  | some n =>
    have wide : n.toNat + offset.toNat - offset.toNat = n.toNat := Nat.add_sub_cancel ..
    simp [coordinate?, DefectLog.coordinate, Text.natText, Text.readNat_digits, wide]

/-- Nothing is lost of a defect all of whose keys have values. -/
theorem visible_eq {d : Defect} (filled : ∀ name, d.keys.get? name ≠ some "") : d.visible = d := by
  have all : d.keys.entries.filter (fun entry => entry.2 ≠ "") = d.keys.entries := by
    refine List.filter_eq_self.mpr fun entry member => ?_
    have present := OrderedMap.mem_entries_iff.mp member
    have other : entry.2 ≠ "" := fun empty => filled entry.1 (empty ▸ present)
    simpa using other
  rw [visible, all, OrderedMap.ofList_entries]

end Defect

namespace DefectLog

theorem logAll_append (log : DefectLog) (first second : List Defect) :
    (log.logAll first).logAll second = log.logAll (first ++ second) := by
  rw [DefectLog.logAll, DefectLog.logAll, DefectLog.logAll, List.foldl_append]

theorem logAll_enabled (records : Array Defect) (ds : List Defect) :
    DefectLog.logAll { records } ds = { records := records ++ ds.toArray } := by
  induction ds generalizing records with
  | nil => simp [DefectLog.logAll]
  | cons d ds ih => exact (ih (records.push d)).trans (by simp)

theorem records_logAll {l : DefectLog} (enabled : l.enabled = true) (ds : List Defect) :
    (l.logAll ds).records.toList = l.records.toList ++ ds := by
  obtain ⟨records, _⟩ := l
  obtain rfl : _ = true := enabled
  rw [logAll_enabled]
  simp

def names (l : DefectLog) : List String :=
  ((l.records.toList.flatMap fun d => d.keys.keys).filter
    fun name => !baseHeaders.contains name).eraseDups

section Headers

variable {known seen : List String}

/-- Appending what is not there yet appends the new names, each once. -/
theorem foldl_unseen (known seen : List String) :
    seen.foldl (fun hs key => if hs.contains key then hs else hs ++ [key]) known =
      known ++ (seen.filter fun name => !known.contains name).eraseDups := by
  induction seen generalizing known with
  | nil => simp
  | cons name seen ih =>
    rw [List.foldl_cons]
    by_cases old : known.contains name = true
    · have dropped : (name :: seen).filter (fun n => !known.contains n) =
          seen.filter fun n => !known.contains n := List.filter_cons_of_neg (by rw [old]; decide)
      rw [if_pos old, ih, dropped]
    · have kept : (name :: seen).filter (fun n => !known.contains n) =
          name :: seen.filter fun n => !known.contains n :=
        List.filter_cons_of_pos (by simpa using old)
      have later : (seen.filter fun n => !(known ++ [name]).contains n) =
          (seen.filter fun n => !known.contains n).filter fun n => !n == name := by
        rw [List.filter_filter]
        refine List.filter_congr fun n _ => ?_
        rw [Bool.eq_iff_iff]
        simp [and_comm]
      rw [if_neg old, ih, kept, List.eraseDups_cons, later, List.append_assoc,
        List.singleton_append]

theorem nodup_foldl_unseen (nodup : known.Nodup) :
    (seen.foldl (fun hs key => if hs.contains key then hs else hs ++ [key]) known).Nodup := by
  induction seen generalizing known with
  | nil => exact nodup
  | cons name seen ih =>
    rw [List.foldl_cons]
    by_cases old : known.contains name = true
    · rw [if_pos old]
      exact ih nodup
    · have apart : name ∉ known := by simpa using old
      rw [if_neg old]
      refine ih (List.nodup_append.mpr ⟨nodup, List.pairwise_singleton _ name, ?_⟩)
      rintro other member _ single rfl
      exact apart (List.mem_singleton.mp single ▸ member)

end Headers

theorem headers_eq (l : DefectLog) : l.headers = baseHeaders ++ l.names := foldl_unseen _ _

theorem headers_nodup (l : DefectLog) : l.headers.Nodup := nodup_foldl_unseen (by decide)

/-- A key of a logged defect is a header. -/
theorem mem_headers {l : DefectLog} {d : Defect} (logged : d ∈ l.records.toList) {name : String}
    (key : name ∈ d.keys.keys) : name ∈ l.headers := by
  rw [headers_eq, List.mem_append, names, List.mem_eraseDups, List.mem_filter]
  by_cases base : name ∈ baseHeaders
  · exact .inl base
  · exact .inr ⟨List.mem_flatMap.mpr ⟨d, logged, key⟩, by simpa using base⟩

section Lines

variable {headers : List String} {name : String} {j : Nat}

/-- A value put under a header is in the cell of that header alone. -/
theorem getElem?_set_idxOf (nodup : headers.Nodup) (inside : j < headers.length)
    (key value : String) (cells : List String) (wide : cells.length = headers.length) :
    (cells.set (headers.idxOf key) value)[j]? =
      if headers[j] = key then some value else cells[j]? := by
  have here : headers.idxOf key = j ↔ headers[j] = key := by
    constructor
    · rintro rfl
      exact List.getElem_idxOf inside
    · intro same
      rw [← same]
      exact nodup.idxOf_getElem j inside
  rw [List.getElem?_set]
  by_cases same : headers[j] = key
  · have slot := here.mpr same
    rw [if_pos slot, if_pos same, if_pos (by omega)]
  · rw [if_neg (mt here.mp same), if_neg same]

/-- Of values put under headers the last one under a header stays. -/
theorem getElem?_foldl_set (nodup : headers.Nodup) (there : headers[j]? = some name)
    (entries : List (String × String)) (cells : List String)
    (wide : cells.length = headers.length) :
    (entries.foldl (fun cells entry => cells.set (headers.idxOf entry.1) entry.2) cells)[j]? =
      (lookupEntry name entries.reverse).or cells[j]? := by
  obtain ⟨inside, rfl⟩ := List.getElem?_eq_some_iff.mp there
  induction entries generalizing cells with
  | nil => simp [lookupEntry]
  | cons entry entries ih =>
    rw [List.foldl_cons, ih _ (by rw [List.length_set, wide]),
      getElem?_set_idxOf nodup inside entry.1 entry.2 cells wide, List.reverse_cons,
      lookupEntry_append]
    cases lookupEntry headers[j] entries.reverse with
    | some v => rfl
    | none =>
      rw [lookupEntry, lookupEntry]
      split <;> simp

theorem length_foldl_set (entries : List (String × String)) (cells : List String) :
    (entries.foldl (fun cells entry => cells.set (headers.idxOf entry.1) entry.2) cells).length =
      cells.length := by
  induction entries generalizing cells with
  | nil => rfl
  | cons entry entries ih => rw [List.foldl_cons, ih, List.length_set]

/-- Under the names after the base headers stand keys only. -/
theorem place_of_mem_names {l : DefectLog} (listed : name ∈ l.names) (d : Defect)
    (offset : UInt32) : name ∉ baseHeaders ∧ d.place offset name = "" := by
  have apart : name ∉ baseHeaders := by
    simpa using (List.mem_filter.mp (List.mem_eraseDups.mp listed)).2
  refine ⟨apart, ?_⟩
  simp only [baseHeaders, List.mem_cons, List.not_mem_nil, or_false, not_or] at apart
  rw [Defect.place, if_neg apart.1, if_neg apart.2.1, if_neg apart.2.2]

/-- What a line holds before the keys: the place and the message, then empty cells. -/
theorem map_place (l : DefectLog) (offset : UInt32) (d : Defect) :
    l.headers.map (d.place offset) = coordinate offset d.column :: coordinate offset d.row ::
      d.message :: List.replicate (l.headers.length - 3) "" := by
  have rest : l.names.map (d.place offset) = List.replicate l.names.length "" :=
    List.map_eq_replicate_iff.mpr fun name listed => (place_of_mem_names listed d offset).2
  have count : l.headers.length - 3 = l.names.length := by
    rw [headers_eq, List.length_append]
    exact Nat.add_sub_cancel_left ..
  rw [count, ← rest, headers_eq]
  rfl

/-- A line shows under each header what the defect has there. -/
theorem line_eq (l : DefectLog) (offset : UInt32) (d : Defect) :
    line l.headers offset d = l.headers.map (d.shown offset) := by
  have wide : (l.headers.map (d.place offset)).length = l.headers.length := List.length_map _
  refine List.ext_getElem? fun j => ?_
  rw [line, ← map_place]
  cases there : l.headers[j]? with
  | none =>
    have outside := List.getElem?_eq_none_iff.mp there
    rw [List.getElem?_eq_none (by rw [length_foldl_set, wide]; exact outside),
      List.getElem?_eq_none (by rw [List.length_map]; exact outside)]
  | some name =>
    have found : lookupEntry name d.keys.entries.reverse = d.keys.get? name := by
      rw [← OrderedMap.get?_ofList, OrderedMap.ofList_entries]
    rw [getElem?_foldl_set l.headers_nodup there _ _ wide, found, List.getElem?_map,
      List.getElem?_map, there, Option.map_some, Option.map_some, Defect.shown]
    cases d.keys.get? name <;> rfl

end Lines

section Reading

variable {l : DefectLog} {d : Defect} {name : String} {offset : UInt32}

theorem shown_of_mem_names (listed : name ∈ l.names) :
    d.shown offset name = (d.keys.get? name).getD "" := by
  rw [Defect.shown, (place_of_mem_names listed d offset).2]

theorem mem_names_of_plain (logged : d ∈ l.records.toList) (plain : d.Plain) {value : String}
    (present : d.keys.get? name = some value) : name ∈ l.names := by
  have header := mem_headers logged (OrderedMap.mem_keys_of_get? present)
  rw [headers_eq, List.mem_append] at header
  refine header.resolve_left fun base => ?_
  rw [plain name base] at present
  cases present

/-- Under the names a line shows the keys that have a value, and no others. -/
theorem shown_keys (logged : d ∈ l.records.toList) (plain : d.Plain) :
    OrderedMap.ofList ((l.names.zip (l.names.map (d.shown offset))).filter fun e => e.2 ≠ "") =
      d.visible.keys := by
  have pairs : l.names.zip (l.names.map (d.shown offset)) =
      l.names.map fun name => (name, d.shown offset name) := by
    rw [List.zip_eq_zipWith, List.zipWith_map_right, List.zipWith_self]
  have same (entry : String × String) :
      entry ∈ (l.names.map fun name => (name, d.shown offset name)).filter (fun e => e.2 ≠ "") ↔
        entry ∈ d.keys.entries.filter fun e => e.2 ≠ "" := by
    obtain ⟨name, v⟩ := entry
    simp only [List.mem_filter, List.mem_map, Prod.mk.injEq, OrderedMap.mem_entries_iff]
    refine and_congr_left fun filled => ⟨?_, fun present => ?_⟩
    · rintro ⟨name, listed, rfl, rfl⟩
      rw [shown_of_mem_names listed] at filled ⊢
      cases present : d.keys.get? name with
      | some v => rfl
      | none => simp [present] at filled
    · have listed := mem_names_of_plain logged plain present
      exact ⟨name, listed, rfl, by rw [shown_of_mem_names listed, present]; rfl⟩
  rw [pairs, Defect.visible]
  refine OrderedMap.ofList_congr same fun member member' => ?_
  exact d.keys.entries_single (List.mem_filter.mp member).1 (List.mem_filter.mp member').1

/-- A line as it is written: the places that keys of base headers do not take, then the values. -/
theorem line_cells (l : DefectLog) (offset : UInt32) (d : Defect) : line l.headers offset d =
    (d.keys.get? "Column").getD (coordinate offset d.column) ::
      (d.keys.get? "Row").getD (coordinate offset d.row) ::
      (d.keys.get? "Message").getD d.message ::
      l.names.map fun name => (d.keys.get? name).getD "" := by
  have values : l.names.map (d.shown offset) = l.names.map fun name => (d.keys.get? name).getD "" :=
    List.map_congr_left fun name listed => shown_of_mem_names listed
  rw [line_eq, headers_eq, List.map_append, values]
  rfl

/-- Every logged defect can be read back from its line, keys with an empty value apart. -/
theorem ofLine?_line (logged : d ∈ l.records.toList) (plain : d.Plain) (offset : UInt32) :
    Defect.ofLine? l.names offset (line l.headers offset d) = some d.visible := by
  have base (name : String) (member : name ∈ baseHeaders) :
      d.shown offset name = d.place offset name := by rw [Defect.shown, plain name member]; rfl
  have cells : line l.headers offset d = coordinate offset d.column :: coordinate offset d.row ::
      d.message :: l.names.map (d.shown offset) := by
    rw [line_eq, headers_eq]
    simp only [baseHeaders, List.cons_append, List.nil_append, List.map_cons]
    rw [base "Column" (by decide), base "Row" (by decide), base "Message" (by decide)]
    rfl
  rw [cells, Defect.ofLine?, Defect.coordinate?_coordinate, Defect.coordinate?_coordinate,
    shown_keys logged plain]
  rfl

end Reading

/-- What a log that is on reports of the defects it was given, after those it had. Lines are as wide
as the headers, and all of a defect can be read back from its line unless one of its keys has the
name of a base header, whose cell then shows the key instead. -/
theorem report_faithful {l : DefectLog} (enabled : l.enabled = true) (ds : List Defect)
    (offset : UInt32) :
    let defects := l.records.toList ++ ds
    let names := ((defects.flatMap fun d => d.keys.keys).filter
      fun name => !baseHeaders.contains name).eraseDups
    let line (d : Defect) : List String :=
      (d.keys.get? "Column").getD (coordinate offset d.column) ::
        (d.keys.get? "Row").getD (coordinate offset d.row) ::
        (d.keys.get? "Message").getD d.message ::
        names.map fun name => (d.keys.get? name).getD ""
    (l.logAll ds).report offset = (baseHeaders ++ names) :: defects.map line ∧
      (baseHeaders ++ names).Nodup ∧
      (∀ d, (line d).length = (baseHeaders ++ names).length) ∧
      ∀ d ∈ defects, d.Plain → Defect.ofLine? names offset (line d) = some d.visible ∧
        ((∀ name, d.keys.get? name ≠ some "") → d.visible = d) := by
  intro defects names line
  have records : (l.logAll ds).records.toList = defects := records_logAll enabled ds
  have same : (l.logAll ds).names = names := by rw [DefectLog.names, records]
  have headers : (l.logAll ds).headers = baseHeaders ++ names := by rw [headers_eq, same]
  have lines (d : Defect) : DefectLog.line (l.logAll ds).headers offset d = line d := by
    rw [line_cells, same]
  refine ⟨?_, headers ▸ headers_nodup _, fun d => ?_, fun d member plain => ⟨?_, ?_⟩⟩
  · rw [report, records, headers, ← headers]
    exact congrArg _ (List.map_congr_left fun d _ => lines d)
  · simp only [line, baseHeaders, List.length_append, List.length_cons, List.length_map,
      List.length_nil]
    omega
  · rw [← lines, ← same]
    exact ofLine?_line (records ▸ member) plain offset
  · exact Defect.visible_eq

theorem report_faithful_keyed :
    let late := ((Defect.of "late").atCell 1 7).withKey "ID" "T1"
    let r := (DefectLog.logAll {} [.of "lost", late]).report 1
    r = [["Column", "Row", "Message", "ID"], ["", "", "lost", ""], ["2", "8", "late", "T1"]] ∧
      (r[2]?).bind (Defect.ofLine? ["ID"] 1) = some late := by
  intro late r
  obtain ⟨report, -, -, read⟩ := report_faithful (l := {}) rfl [.of "lost", late] 1
  have cells : r = [["Column", "Row", "Message", "ID"], ["", "", "lost", ""],
      ["2", "8", "late", "T1"]] := report.trans (by decide +kernel)
  have plain : late.Plain := by
    rw [Defect.Plain]
    decide +kernel
  have whole : late.visible = late := by decide +kernel
  have back := (read late (by simp) plain).1
  rw [whole] at back
  refine ⟨cells, Eq.trans ?_ back⟩
  rw [cells]
  decide +kernel

/-- A key named like a base header is no header of its own and takes the place of the message, so
defects with different messages are reported alike. -/
theorem report_hides_message :
    let log (message : String) : DefectLog :=
      DefectLog.log {} (((Defect.of message).atCell 1 2).withKey "Message" "x")
    (log "late").report 0 = [["Column", "Row", "Message"], ["1", "2", "x"]] ∧
      (log "early").report 0 = (log "late").report 0 := by
  decide +kernel

end DefectLog
end LayeredTable
