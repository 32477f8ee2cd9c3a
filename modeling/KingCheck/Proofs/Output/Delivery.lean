import KingCheck.Proofs.Output.Willing
import KingCheck.Proofs.Text.Lines

/-!
# Delivering reports

Reports go to a sink one after another, up to the first that it refuses.  What comes of a
list of reports is a matter of the sink alone: a device with limited room takes the lines
of the reports up to where its room ends (`deliver_of_length_lt`), and a list with a
capacity takes the first reports (`ReportList.deliver_of_lt_size_add`).  Since an object is one
line, the octet that a device refuses tells whether it lies in an object or ends one.
-/
namespace KingCheck

namespace ReportSink

variable {κ : Type} [ReportSink κ] {sink next : κ} {r : Report} {reports : List Report}

/-- Send reports one after another, up to the first that is refused. -/
def deliver (sink : κ) : List Report → Except Failure Unit × κ
  | [] => (.ok (), sink)
  | r :: reports =>
    match emit sink r with
    | (.ok (), next) => deliver next reports
    | refused => refused

@[simp] theorem deliver_nil : deliver sink [] = (.ok (), sink) := rfl

theorem deliver_cons_of_ok (h : emit sink r = (.ok (), next)) :
    deliver sink (r :: reports) = deliver next reports := by
  simp only [deliver, h]

theorem deliver_cons_of_error {failure : Failure} (h : emit sink r = (.error failure, next)) :
    deliver sink (r :: reports) = (.error failure, next) := by
  simp only [deliver, h]

/-- What was taken comes before what is sent next. -/
theorem deliver_append (h : deliver sink reports = (.ok (), next)) (more : List Report) :
    deliver sink (reports ++ more) = deliver next more := by
  induction reports generalizing sink with
  | nil =>
    obtain rfl : sink = next := congrArg Prod.snd h
    rfl
  | cons r reports ih =>
    rcases hemit : emit sink r with ⟨failure | _, after⟩
    · simp [deliver_cons_of_error hemit] at h
    · rw [deliver_cons_of_ok hemit] at h
      rw [List.cons_append, deliver_cons_of_ok hemit]
      exact ih h

/-- Nothing is sent behind a report that is refused. -/
theorem deliver_append_of_error {failure : Failure}
    (h : deliver sink reports = (.error failure, next)) (more : List Report) :
    deliver sink (reports ++ more) = (.error failure, next) := by
  induction reports generalizing sink with
  | nil => simp at h
  | cons r reports ih =>
    rcases hemit : emit sink r with ⟨failure' | _, after⟩
    · rw [deliver_cons_of_error hemit] at h
      rw [List.cons_append, deliver_cons_of_error hemit, h]
    · rw [deliver_cons_of_ok hemit] at h
      rw [List.cons_append, deliver_cons_of_ok hemit]
      exact ih h

/-- A sink that never fails takes any reports, and stays so. -/
theorem Willing.deliver_ok {sink : κ} (h : Willing sink) (reports : List Report) :
    ∃ next, deliver sink reports = (.ok (), next) ∧ Willing next := by
  induction reports generalizing sink with
  | nil => exact ⟨sink, rfl, h⟩
  | cons r reports ih =>
    have hemit : ReportSink.emit sink r = (.ok (), (ReportSink.emit sink r).2) :=
      Prod.ext (h.emit_ok r) rfl
    rw [deliver_cons_of_ok hemit]
    exact ih (h.emit r)

end ReportSink

open Text

theorem newline_notMem_repr (n : Nat) : '\n' ∉ n.repr.toList := by
  intro h
  rw [Nat.toList_repr] at h
  exact absurd (Nat.isDigit_of_mem_toDigits (by decide) (by decide) h) (by decide)

theorem Square.newline_notMem_json (s : Square) : '\n' ∉ s.json.toList := by
  simp [json, Json.object, Json.member, Json.string, newline_notMem_repr, -Nat.toList_repr]

theorem Attack.newline_notMem_json (a : Attack) : '\n' ∉ a.json.toList := by
  have hkind : '\n' ∉ a.kind.name.toList := by cases a.kind <;> decide
  have hside : '\n' ∉ a.side.name.toList := by cases a.side <;> decide
  simp [json, Json.object, Json.member, Json.string, hkind, hside, a.origin.newline_notMem_json]

/-- A report's object is one line. -/
theorem Report.newline_notMem_json (r : Report) : '\n' ∉ r.json.toList := by
  have hverdict : '\n' ∉ r.verdict.name.toList := by cases r.verdict <;> decide
  have hattacker : '\n' ∉ ((r.attacker.map Attack.json).getD Json.null).toList := by
    cases r.attacker with
    | none => decide
    | some a => exact a.newline_notMem_json
  simp [json, Json.object, Json.member, Json.string, newline_notMem_repr, hverdict, hattacker,
    -Nat.toList_repr]

namespace Output

open ReportSink (deliver deliver_cons_of_ok deliver_cons_of_error)

/-- The octets of the lines of some reports. -/
def lineOctets (format : Format) (reports : List Report) : Octets :=
  reports.flatMap fun r => octets (line format r)

/-- The failure at an octet that is refused: only inside an object it is one of JSON. -/
def refusalAt (format : Format) (octet : UInt8) (refusal : String) : Failure :=
  match format with
  | .text => .device refusal
  | .json => if octet = Input.newline then .device refusal else .json refusal

theorem append_append (written : Array UInt8) (first next : Octets) :
    written ++ first ++ next = written ++ (first ++ next) := Array.ext' (by simp)

namespace Writer

variable {written : Array UInt8} {room : Nat} {refusal : String} {flush : Option String}
  {bytes : Octets}

/-- What fits is written. -/
theorem write_of_length_le (h : bytes.length ≤ room) :
    (⟨written, some ⟨room, refusal⟩, flush⟩ : Writer).write bytes =
      (.ok (), ⟨written ++ bytes, some ⟨room - bytes.length, refusal⟩, flush⟩) := by
  simp only [write, h, if_true]

/-- What does not fit is cut. -/
theorem write_of_length_lt (h : room < bytes.length) :
    (⟨written, some ⟨room, refusal⟩, flush⟩ : Writer).write bytes =
      (.error refusal, ⟨written ++ bytes.take room, some ⟨0, refusal⟩, flush⟩) := by
  simp only [write, Nat.not_le.2 h, if_false]

end Writer

namespace LineSink

/-- A sink that writes lines to a device with limited room. -/
def limited (format : Format) (written : Array UInt8) (room : Nat) (refusal : String)
    (flush : Option String) : LineSink :=
  ⟨format, ⟨written, some ⟨room, refusal⟩, flush⟩⟩

/-- A sink that writes lines to a device with unlimited room. -/
def unlimited (format : Format) (written : Array UInt8) (flush : Option String) : LineSink :=
  ⟨format, ⟨written, none, flush⟩⟩

variable {format : Format} {written : Array UInt8} {room : Nat} {refusal : String}
  {flush : Option String}

theorem put_of_length_le {s : String} (h : (octets s).length ≤ room)
    (blame : String → Failure) :
    (limited format written room refusal flush).put s blame =
      (.ok (), limited format (written ++ octets s) (room - (octets s).length) refusal flush) := by
  simp only [limited, put, Writer.write_of_length_le h]
  rfl

theorem put_of_length_lt {s : String} (h : room < (octets s).length)
    (blame : String → Failure) :
    (limited format written room refusal flush).put s blame =
      (.error (blame refusal),
        limited format (written ++ (octets s).take room) 0 refusal flush) := by
  simp only [limited, put, Writer.write_of_length_lt h]
  rfl

/-- An object is written before its newline. -/
theorem emit_json (writer : Writer) (r : Report) :
    (⟨.json, writer⟩ : LineSink).emit r =
      match (⟨.json, writer⟩ : LineSink).put r.json .json with
      | (.ok (), sink) => sink.put "\n" .device
      | failed => failed := rfl

theorem octets_line_json (r : Report) :
    octets (line .json r) = octets r.json ++ [Input.newline] := octets_append r.json "\n"

/-- A line that fits is written. -/
theorem emit_of_length_le {r : Report} (h : (octets (line format r)).length ≤ room) :
    (limited format written room refusal flush).emit r =
      (.ok (), limited format (written ++ octets (line format r))
        (room - (octets (line format r)).length) refusal flush) := by
  cases format with
  | text => exact put_of_length_le h _
  | json =>
    rw [octets_line_json, List.length_append] at h ⊢
    have hobject : (octets r.json).length ≤ room := Nat.le_of_add_right_le h
    have hend : (octets "\n").length ≤ room - (octets r.json).length := Nat.le_sub_of_add_le' h
    have hwritten : written ++ octets r.json ++ octets "\n" =
        written ++ (octets r.json ++ [Input.newline]) := Array.ext' (by simp; rfl)
    have hput : (limited .json written room refusal flush).put r.json .json =
        (.ok (), limited .json (written ++ octets r.json) (room - (octets r.json).length) refusal
          flush) := put_of_length_le hobject .json
    rw [limited, emit_json, ← limited, hput]
    simp only
    rw [put_of_length_le hend, hwritten, Nat.sub_sub]
    rfl

/-- No octet of an object is a newline. -/
theorem newline_notMem_octets_json (r : Report) : Input.newline ∉ octets r.json := by
  intro h
  exact r.newline_notMem_json (newline_mem_encode_iff.1 h)

/-- A line that does not fit is cut, and the first octet that is refused tells the failure. -/
theorem emit_of_length_lt {r : Report} (h : room < (octets (line format r)).length) :
    (limited format written room refusal flush).emit r =
      (.error (refusalAt format (octets (line format r))[room] refusal),
        limited format (written ++ (octets (line format r)).take room) 0 refusal flush) := by
  cases format with
  | text => exact put_of_length_lt h _
  | json =>
    -- With the variable on the left, substituting would first evaluate the line.
    have hline := (octets_line_json r).symm
    generalize octets (line .json r) = bytes at h hline ⊢
    subst hline
    rw [limited, emit_json, ← limited]
    by_cases hroom : room < (octets r.json).length
    · have hoctet : (octets r.json)[room] ≠ Input.newline := by
        intro heq
        exact newline_notMem_octets_json r (heq ▸ List.getElem_mem hroom)
      rw [put_of_length_lt hroom]
      simp only [List.getElem_append_left hroom, refusalAt, hoctet, if_false,
        List.take_append_of_le_length (Nat.le_of_lt hroom)]
    · rw [List.length_append, List.length_singleton] at h
      obtain rfl : (octets r.json).length = room := by omega
      have hend : 0 < (octets "\n").length := by decide
      rw [put_of_length_le (Nat.le_refl _), Nat.sub_self]
      simp only
      rw [put_of_length_lt hend, List.take_zero, List.take_left]
      simp [refusalAt]

/-- **Where all lines fit, all are written.** -/
theorem deliver_of_length_le {reports : List Report}
    (h : (lineOctets format reports).length ≤ room) (written : Array UInt8) (refusal : String)
    (flush : Option String) : deliver (limited format written room refusal flush) reports =
      (.ok (), limited format (written ++ lineOctets format reports)
        (room - (lineOctets format reports).length) refusal flush) := by
  induction reports generalizing written room with
  | nil => simp [lineOctets]
  | cons r reports ih =>
    rw [lineOctets, List.flatMap_cons, ← lineOctets, List.length_append] at h ⊢
    have hfirst : (octets (line format r)).length ≤ room := Nat.le_of_add_right_le h
    rw [deliver_cons_of_ok (emit_of_length_le hfirst), ih (Nat.le_sub_of_add_le' h), Nat.sub_sub,
      append_append]

/-- **Where not all lines fit, they are cut where the room ends.** -/
theorem deliver_of_length_lt {reports : List Report}
    (h : room < (lineOctets format reports).length) (written : Array UInt8) (refusal : String)
    (flush : Option String) : deliver (limited format written room refusal flush) reports =
      (.error (refusalAt format (lineOctets format reports)[room] refusal),
        limited format (written ++ (lineOctets format reports).take room) 0 refusal flush) := by
  induction reports generalizing written room with
  | nil => simp [lineOctets] at h
  | cons r reports ih =>
    have hcons : lineOctets format (r :: reports) =
        octets (line format r) ++ lineOctets format reports := List.flatMap_cons
    generalize lineOctets format (r :: reports) = bytes at h hcons ⊢
    subst hcons
    by_cases hfirst : room < (octets (line format r)).length
    · rw [deliver_cons_of_error (emit_of_length_lt hfirst), List.getElem_append_left hfirst,
        List.take_append_of_le_length (Nat.le_of_lt hfirst)]
    · have hle : (octets (line format r)).length ≤ room := Nat.le_of_not_lt hfirst
      rw [List.length_append] at h
      rw [deliver_cons_of_ok (emit_of_length_le hle), ih (Nat.sub_lt_left_of_lt_add hle h),
        List.getElem_append_right hle, List.take_append, List.take_of_length_le hle, append_append]

/-- Without a limit all lines are written. -/
theorem deliver_unlimited (format : Format) (written : Array UInt8) (flush : Option String)
    (reports : List Report) : deliver (unlimited format written flush) reports =
      (.ok (), unlimited format (written ++ lineOctets format reports) flush) := by
  induction reports generalizing written with
  | nil => simp [lineOctets]
  | cons r reports ih =>
    have hemit : ReportSink.emit (unlimited format written flush) r =
        (.ok (), unlimited format (written ++ octets (line format r)) flush) :=
      emit_of_limit_eq_none rfl r
    rw [deliver_cons_of_ok hemit, ih, lineOctets, lineOctets, List.flatMap_cons, append_append]

end LineSink

namespace ReportList

variable {kept : Array Report} {capacity : Nat} {refusal : String} {finishFailure : Option String}
  {reports : List Report}

/-- A list keeps as it is when it is told the end. -/
theorem finish_keeps (sink : ReportList) : (ReportSink.finish sink).2 = sink := by
  rcases sink with ⟨_, _, _, _ | _⟩ <;> rfl

theorem emit_of_size_lt (h : kept.size < capacity) (r : Report) :
    ReportSink.emit (⟨kept, some capacity, refusal, finishFailure⟩ : ReportList) r =
      (.ok (), ⟨kept.push r, some capacity, refusal, finishFailure⟩) := by
  simp [ReportSink.emit, emit, h]

theorem emit_of_size_eq (h : kept.size = capacity) (r : Report) :
    ReportSink.emit (⟨kept, some capacity, refusal, finishFailure⟩ : ReportList) r =
      (.error (.device refusal), ⟨kept, some capacity, refusal, finishFailure⟩) := by
  simp [ReportSink.emit, emit, h]

/-- Where there is room for all reports, all are kept. -/
theorem deliver_of_size_add_le (kept : Array Report) (refusal : String)
    (finishFailure : Option String) (h : kept.size + reports.length ≤ capacity) :
    deliver (⟨kept, some capacity, refusal, finishFailure⟩ : ReportList) reports =
      (.ok (), ⟨kept ++ reports, some capacity, refusal, finishFailure⟩) := by
  induction reports generalizing kept with
  | nil => simp
  | cons r reports ih =>
    rw [List.length_cons] at h
    rw [deliver_cons_of_ok (emit_of_size_lt (by omega) r), ih _ (by rw [Array.size_push]; omega)]
    simp

/-- The first report for which there is no room is refused. -/
theorem deliver_of_lt_size_add (kept : Array Report) (refusal : String)
    (finishFailure : Option String) (hkept : kept.size ≤ capacity)
    (h : capacity < kept.size + reports.length) :
    deliver (⟨kept, some capacity, refusal, finishFailure⟩ : ReportList) reports =
      (.error (.device refusal), ⟨kept ++ reports.take (capacity - kept.size), some capacity,
        refusal, finishFailure⟩) := by
  induction reports generalizing kept with
  | nil => simp only [List.length_nil] at h; omega
  | cons r reports ih =>
    rw [List.length_cons] at h
    rcases Nat.lt_or_eq_of_le hkept with hroom | hfull
    · have hsucc : capacity - kept.size = capacity - (kept.push r).size + 1 := by
        rw [Array.size_push]
        omega
      rw [deliver_cons_of_ok (emit_of_size_lt hroom r),
        ih _ (by rw [Array.size_push]; omega) (by rw [Array.size_push]; omega), hsucc]
      simp
    · rw [deliver_cons_of_error (emit_of_size_eq hfull r), hfull, Nat.sub_self, List.take_zero]
      simp

/-- Without a capacity all reports are kept. -/
theorem deliver_of_capacity_eq_none (kept : Array Report) (refusal : String)
    (finishFailure : Option String) (reports : List Report) :
    deliver (⟨kept, none, refusal, finishFailure⟩ : ReportList) reports =
      (.ok (), ⟨kept ++ reports, none, refusal, finishFailure⟩) := by
  induction reports generalizing kept with
  | nil => simp
  | cons r reports ih =>
    have hemit : ReportSink.emit (⟨kept, none, refusal, finishFailure⟩ : ReportList) r =
        (.ok (), ⟨kept.push r, none, refusal, finishFailure⟩) := by
      simp [ReportSink.emit, emit]
    rw [deliver_cons_of_ok hemit, ih]
    simp

end ReportList
end Output
end KingCheck
