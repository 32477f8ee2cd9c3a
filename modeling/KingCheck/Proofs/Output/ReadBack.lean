import KingCheck.Proofs.Output.Delivery
import KingCheck.Proofs.Text.JsonScan

/-!
# Reading reports back

A report's object tells all of the report, and its line of text the number and the verdict.
Both can be read back, and since a newline ends each line and is in none, so can the lines of
any number of reports (`map_ofJson?_pieces`, `map_ofText?_pieces`): no two lists of reports
make the same octets of JSON, and none with other numbers or verdicts the same text.
-/
namespace KingCheck

open Text.Json (Scan)
open Text.Json.Scan (named both braced)

/-- All kinds of cells. -/
def Kind.all : List Kind := .empty :: Kind.pieces

/-- All verdicts. -/
def Verdict.all : List Verdict := [.whiteInCheck, .blackInCheck, .noneInCheck]

theorem Kind.mem_all (k : Kind) : k ∈ Kind.all := by
  cases k <;> decide

theorem Verdict.mem_all (v : Verdict) : v ∈ Verdict.all := by
  cases v <;> decide

/-- Read the object of a square. -/
def Square.scan : Scan Square :=
  (braced (both (named "row" Scan.number) (named "col" Scan.number))).mapSome
    fun (row, col) => Square.at? row col

/-- Read the object of an attack. -/
def Attack.scan : Scan Attack :=
  (braced (both (named "kind" (Scan.word Kind.all Kind.name))
    (both (named "side" (Scan.word Side.all Side.name)) (named "from" Square.scan)))).mapSome
      fun (kind, side, origin) => some ⟨kind, side, origin⟩

/-- Read the object of a report. -/
def Report.scan : Scan Report :=
  (braced (both (named "game" Scan.number)
    (both (named "verdict" (Scan.word Verdict.all Verdict.name))
      (named "attacker" Attack.scan.nullable)))).mapSome
        fun (game, verdict, attacker) => some ⟨game, verdict, attacker⟩

/-- The report that an object tells. -/
def Report.ofJson? (text : String) : Option Report := Report.scan.whole text

/-- The number and the verdict that a line of text tells. -/
def Report.ofText? (text : String) : Option (Nat × Verdict) := do
  let rest ← text.toList.dropPrefix? "Game #".toList
  let (game, rest) ← Scan.number rest
  let verdict ← Verdict.all.find? fun v => (": " ++ v.message ++ ".").toList == rest
  return (game, verdict)

theorem Kind.distinct_name : Scan.Distinct Kind.all Kind.name := by
  simp only [Scan.Distinct]
  decide

theorem Side.distinct_name : Scan.Distinct Side.all Side.name := by
  simp only [Scan.Distinct]
  decide

theorem Verdict.distinct_name : Scan.Distinct Verdict.all Verdict.name := by
  simp only [Scan.Distinct]
  decide

/-- A square's object tells the square. -/
theorem Square.reads_json (s : Square) : Square.scan.Reads s.json s := by
  have hrow := (Scan.reads_number s.row.val).member "row"
  have hcol := (Scan.reads_number s.col.val).member "col"
  exact (hrow.before hcol.last).object.mapSome (Square.at?_eq_some_iff.2 ⟨rfl, rfl⟩)

/-- An attack's object tells the attack. -/
theorem Attack.reads_json (a : Attack) : Attack.scan.Reads a.json a := by
  have hkind := (Scan.reads_word Kind.distinct_name a.kind.mem_all).member "kind"
  have hside := (Scan.reads_word Side.distinct_name a.side.mem_all).member "side"
  have horigin := a.origin.reads_json.member "from"
  exact (hkind.before (hside.before horigin.last)).object.mapSome rfl

/-- An attacker is told, or that there is none. -/
theorem Attack.reads_optional (attacker : Option Attack) :
    Attack.scan.nullable.Reads ((attacker.map Attack.json).getD Text.Json.null) attacker := by
  cases attacker with
  | none => exact Scan.Reads.null Attack.scan
  | some a =>
    apply a.reads_json.present
    rw [Attack.json, Text.Json.object, String.toList_append, String.toList_append]
    exact ⟨_, rfl⟩

namespace Report

variable (r : Report)

/-- **A report's object tells the report.** -/
theorem ofJson?_json : ofJson? r.json = some r := by
  have hgame := (Scan.reads_number r.game).member "game"
  have hverdict := (Scan.reads_word Verdict.distinct_name r.verdict.mem_all).member "verdict"
  have hattacker := (Attack.reads_optional r.attacker).member "attacker"
  have hscan : Report.scan.Reads r.json r :=
    (hgame.before (hverdict.before hattacker.last)).object.mapSome rfl
  exact hscan.whole

/-- **A report's line tells its number and its verdict.** -/
theorem ofText?_text : ofText? r.text = some (r.game, r.verdict) := by
  have htext : r.text.toList = "Game #".toList ++
      (r.game.repr.toList ++ (": " ++ r.verdict.message ++ ".").toList) := by
    simp [text]
  have hends : Scan.Ends (": " ++ r.verdict.message ++ ".").toList := by
    rw [String.append_assoc, String.toList_append]
    exact Scan.ends_cons (by decide) _
  have hfind : (Verdict.all.find? fun v =>
      (": " ++ v.message ++ ".").toList == (": " ++ r.verdict.message ++ ".").toList) =
        some r.verdict := by
    cases r.verdict <;> decide
  rw [ofText?, htext, Scan.dropPrefix?_append]
  simp only [Option.bind_eq_bind, Option.bind_some, Scan.reads_number r.game _ hends, hfind]
  rfl

end Report

namespace Output

open Text (octets pieces)

/-- The lines of reports, without their newlines. -/
theorem pieces_lineOctets {format : Format} {tell : Report → String}
    (hline : ∀ r, line format r = tell r ++ "\n") (htell : ∀ r, '\n' ∉ (tell r).toList)
    (reports : List Report) :
    pieces Input.newline (lineOctets format reports) = reports.map fun r => octets (tell r) := by
  have hoctets : lineOctets format reports =
      (reports.map fun r => octets (tell r)).flatMap (· ++ [Input.newline]) := by
    rw [lineOctets, List.flatMap_map]
    congr 1
    funext r
    rw [hline, Text.octets_append]
    rfl
  rw [hoctets]
  apply Text.pieces_flatMap
  intro octets hmem hnewline
  obtain ⟨r, -, rfl⟩ := List.mem_map.1 hmem
  exact htell r (Text.newline_mem_encode_iff.1 hnewline)

theorem ofOctets_octets (s : String) : Text.ofOctets (octets s) = s := by
  rw [Text.ofOctets, octets, Text.decode_encode, String.ofList_toList]

/-- **The lines of JSON tell all reports.** -/
theorem map_ofJson?_pieces (reports : List Report) :
    (pieces Input.newline (lineOctets .json reports)).map
      (fun line => Report.ofJson? (Text.ofOctets line)) = reports.map some := by
  rw [pieces_lineOctets (fun _ => rfl) Report.newline_notMem_json, List.map_map]
  apply List.map_congr_left
  intro r _
  rw [Function.comp_apply, ofOctets_octets, r.ofJson?_json]

/-- A report's text is one line. -/
theorem newline_notMem_text (r : Report) : '\n' ∉ r.text.toList := by
  have hverdict : '\n' ∉ r.verdict.message.toList := by cases r.verdict <;> decide
  simp [Report.text, newline_notMem_repr, hverdict, -Nat.toList_repr]

/-- **The lines of text tell all numbers and verdicts.** -/
theorem map_ofText?_pieces (reports : List Report) :
    (pieces Input.newline (lineOctets .text reports)).map
      (fun line => Report.ofText? (Text.ofOctets line)) =
        reports.map fun r => some (r.game, r.verdict) := by
  rw [pieces_lineOctets (fun _ => rfl) newline_notMem_text, List.map_map]
  apply List.map_congr_left
  intro r _
  rw [Function.comp_apply, ofOctets_octets, r.ofText?_text]

end Output
end KingCheck
