import Depot.Proofs.Command.Loading
import Depot.Proofs.RepositoriesFile.Text
import Depot.Proofs.Text.Octets
import Mathlib

/-!
# The lines of a table

Names, URLs and directories stand in a table as they are. Behind the heading and the rule, a table
has a line for each repository, unless a line feed stands in one of these texts: each makes one line
more (`Command.table_by_lines`). So a name can look like the line of a repository that nobody
declared (`Command.table_forged_by_name`).
-/

namespace Depot

/-! ### Lines of a text -/

/-- The lines of a text: what stands between its line feeds. -/
def linesOf (text : String) : List String :=
  (text.toList.splitOn '\n').map String.ofList

/-- The number of line feeds in a text. -/
def lineFeeds (text : String) : Nat :=
  text.toList.count '\n'

lemma lineFeeds_eq_zero_iff {text : String} : lineFeeds text = 0 ↔ '\n' ∉ text.toList :=
  List.count_eq_zero

@[simp] lemma lineFeeds_append (a b : String) : lineFeeds (a ++ b) = lineFeeds a + lineFeeds b := by
  simp [lineFeeds]

/-- Only the texts count that are put together, if what is put between them has no line feeds. -/
lemma lineFeeds_intercalate {between : String} (h : lineFeeds between = 0) (texts : List String) :
    lineFeeds (between.intercalate texts) = (texts.map lineFeeds).sum := by
  induction texts with
  | nil => rfl
  | cons a rest ih =>
    cases rest with
    | nil => simp [String.intercalate_singleton]
    | cons b rest =>
      rw [String.intercalate_cons_cons, lineFeeds_append, lineFeeds_append, ih, h, Nat.add_zero,
        List.map_cons (a := a), List.sum_cons]

lemma linesOf_of_lineFeeds {text : String} (h : lineFeeds text = 0) : linesOf text = [text] := by
  rw [linesOf, List.splitOn_eq_singleton (lineFeeds_eq_zero_iff.1 h)]
  simp

lemma length_linesOf (text : String) : (linesOf text).length = lineFeeds text + 1 := by
  rw [linesOf, lineFeeds, List.length_map]
  induction text.toList with
  | nil => rfl
  | cons c cs ih =>
    rw [List.splitOn_cons_eq_if_modifyHead, List.count_cons]
    split_ifs with hc
    · rw [List.length_cons, ih]
    · rw [List.length_modifyHead, ih]

lemma linesOf_append_lineFeed (a b : String) :
    linesOf (a ++ "\n" ++ b) = linesOf a ++ linesOf b := by
  have hlist : (a ++ "\n" ++ b).toList = a.toList ++ '\n' :: b.toList := by simp
  rw [linesOf, hlist, List.splitOn_append_cons_self, List.map_append]
  rfl

/-- Texts with line feeds between them have the lines of each in turn. -/
lemma linesOf_intercalate {texts : List String} (h : texts ≠ []) :
    linesOf ("\n".intercalate texts) = texts.flatMap linesOf := by
  induction texts with
  | nil => exact absurd rfl h
  | cons a rest ih =>
    cases rest with
    | nil => simp [String.intercalate_singleton]
    | cons b rest =>
      rw [String.intercalate_cons_cons, linesOf_append_lineFeed, ih (List.cons_ne_nil b rest),
        List.flatMap_cons (x := a)]

/-! ### Rows -/

namespace Row

/-- A number of spaces. -/
def spaces (n : Nat) : String :=
  String.ofList (List.replicate n ' ')

/-- What stands behind the location of a row. -/
def mark (row : Row) : String :=
  if row.authenticated then " (authenticated)" else ""

/-- The columns of a row: the name up to 20 characters, the kind up to 10, and the location with its
mark, with a space between two of them. -/
def laidOut (row : Row) : String :=
  row.name ++ spaces (20 - row.name.length) ++ " " ++
    (row.kind.text ++ spaces (10 - row.kind.text.length)) ++ " " ++ (row.location ++ row.mark)

lemma line_eq (row : Row) : row.line = row.laidOut := by
  have hmarked : row.markedLocation = row.location ++ row.mark := by
    rw [markedLocation, mark]
    split_ifs
    · rfl
    · exact String.append_empty.symm
  rw [line, columns, hmarked]
  rfl

lemma lineFeeds_spaces (n : Nat) : lineFeeds (spaces n) = 0 := by
  rw [lineFeeds_eq_zero_iff, spaces, String.toList_ofList]
  intro h
  cases (List.mem_replicate.1 h).2

/-- The line of a row has no line feeds but those of its name and location. -/
lemma lineFeeds_line (row : Row) :
    lineFeeds row.line = lineFeeds row.name + lineFeeds row.location := by
  have hkind : lineFeeds row.kind.text = 0 := by
    cases row.kind <;> rfl
  have hmark : lineFeeds row.mark = 0 := by
    rw [mark]
    split_ifs <;> rfl
  have hspace : lineFeeds " " = 0 := rfl
  simp only [line_eq, laidOut, lineFeeds_append, lineFeeds_spaces, hkind, hmark, hspace,
    Nat.add_zero]

end Row

/-- The texts of a repository that tell where it is: its URL or its directories. -/
def Repository.places : Repository → List String
  | .maven r => r.url.toList
  | .ivy r => r.url.toList
  | .flatDir r => r.dirs.map Path.text
  | .custom _ => []

/-- The texts of a repository that its row shows as they are. -/
def Repository.shownTexts (r : Repository) : List String :=
  r.name :: r.places

lemma Row.lineFeeds_locationOf (r : Repository) :
    lineFeeds (locationOf r) = (r.places.map lineFeeds).sum := by
  have hdash : lineFeeds "-" = 0 := rfl
  have hurl : ∀ url? : Option String,
      lineFeeds (url?.getD "-") = (url?.toList.map lineFeeds).sum := by
    rintro (_ | url)
    · exact hdash
    · simp
  cases r with
  | maven r => exact hurl r.url
  | ivy r => exact hurl r.url
  | flatDir r =>
    rw [locationOf, Repository.places]
    split_ifs with hdirs
    · rw [List.isEmpty_iff.1 hdirs]
      exact hdash
    · exact lineFeeds_intercalate rfl _
  | custom r => exact hdash

lemma Row.lineFeeds_line_ofRepository (r : Repository) :
    lineFeeds (ofRepository r).line = (r.shownTexts.map lineFeeds).sum := by
  rw [lineFeeds_line, Repository.shownTexts, List.map_cons, List.sum_cons, ← lineFeeds_locationOf]
  rfl

/-- A row is one line exactly if none of the texts that it shows has a line feed. -/
lemma Row.lineFeeds_line_eq_zero_iff {r : Repository} : lineFeeds (ofRepository r).line = 0 ↔
    ∀ text ∈ r.shownTexts, '\n' ∉ text.toList := by
  rw [lineFeeds_line_ofRepository, List.sum_eq_zero_iff_forall_eq_nat, List.forall_mem_map]
  simp only [lineFeeds_eq_zero_iff]

/-! ### Tables -/

/-- The heading and the rule of a table. -/
def tableTop : List String :=
  [Row.columns "NAME" "KIND" "LOCATION", String.ofList (List.replicate 60 '-')]

lemma linesOf_table (rows : List Row) :
    linesOf (table rows) = tableTop ++ rows.flatMap fun row => linesOf row.line := by
  have hheading : lineFeeds (Row.columns "NAME" "KIND" "LOCATION") = 0 := by decide
  have hrule : lineFeeds (String.ofList (List.replicate 60 '-')) = 0 := by decide
  rw [table, tableLines, linesOf_intercalate (List.cons_ne_nil _ _), List.flatMap_cons,
    List.flatMap_cons, List.flatMap_map, linesOf_of_lineFeeds hheading, linesOf_of_lineFeeds hrule]
  rfl

lemma length_linesOf_table (rows : List Row) : (linesOf (table rows)).length =
    rows.length + 2 + (rows.map fun row => lineFeeds row.line).sum := by
  have hrows : (rows.flatMap fun row => linesOf row.line).length =
      rows.length + (rows.map fun row => lineFeeds row.line).sum := by
    induction rows with
    | nil => rfl
    | cons row rows ih =>
      rw [List.flatMap_cons, List.length_append, ih, length_linesOf, List.length_cons,
        List.map_cons, List.sum_cons]
      omega
  rw [linesOf_table, List.length_append, hrows, show tableTop.length = 2 from rfl]
  omega

/-- Without line feeds in them, the rows are the lines of the table. -/
lemma linesOf_table_of_lineFeeds {rows : List Row} (h : ∀ row ∈ rows, lineFeeds row.line = 0) :
    linesOf (table rows) = tableTop ++ rows.map Row.laidOut := by
  have hrows : ∀ row ∈ rows, linesOf row.line = [row.laidOut] := by
    intro row hrow
    rw [linesOf_of_lineFeeds (h row hrow), row.line_eq]
  rw [linesOf_table, List.flatMap_congr hrows, ← List.map_eq_flatMap]

namespace Command

variable {h : Host} {file : Option Path} {rows : List Row}

/-- The table of a repositories file. Besides the heading and the rule, it has one line for each
repository, and one more for each line feed in what the rows show of them; so it has as many lines
as it should exactly if there are none. Then the lines are the rows with their columns. -/
theorem table_by_lines (hrows : resolve h file = .ok rows) :
    ∃ s, Declares h file s ∧ rows = s.declared.map Row.ofRepository ∧
      (linesOf (table rows)).length =
        rows.length + 2 + (s.declared.map fun r => (r.shownTexts.map lineFeeds).sum).sum ∧
      ((linesOf (table rows)).length = rows.length + 2 ↔
        ∀ r ∈ s.declared, ∀ text ∈ r.shownTexts, '\n' ∉ text.toList) ∧
      ((∀ r ∈ s.declared, ∀ text ∈ r.shownTexts, '\n' ∉ text.toList) →
        ∀ i row, rows[i]? = some row → (linesOf (table rows))[i + 2]? = some row.laidOut) := by
  obtain ⟨s, hs, rfl⟩ := resolve_eq_ok_iff.1 hrows
  have hlength := length_linesOf_table (s.declared.map Row.ofRepository)
  refine ⟨s, hs, rfl, ?_, ?_, fun hfeeds i row hrow => ?_⟩
  · simpa only [List.map_map, Function.comp_def, Row.lineFeeds_line_ofRepository] using hlength
  · rw [hlength, Nat.add_eq_left, List.sum_eq_zero_iff_forall_eq_nat, List.forall_mem_map,
      List.forall_mem_map]
    simp only [Row.lineFeeds_line_eq_zero_iff]
  · have hline : ∀ row ∈ s.declared.map Row.ofRepository, lineFeeds row.line = 0 :=
      List.forall_mem_map.2 fun r hr => Row.lineFeeds_line_eq_zero_iff.2 (hfeeds r hr)
    rw [linesOf_table_of_lineFeeds hline]
    change ((s.declared.map Row.ofRepository).map Row.laidOut)[i]? = _
    rw [List.getElem?_map, hrow]
    rfl

/-! ### A name with a line feed -/

/-- A host with a repositories file in the working directory. -/
def hostWithFile (f : RepositoriesFile) : Host where
  files := FileSystem.empty.addFile (FileSystem.positionOf ⟨"/work/r.yaml"⟩) f.toYaml.toUTF8
  workingDirectory := .standing ⟨"/work"⟩
  environment := [⟨"HOME", "/home", true⟩]

lemma begins_hostWithFile {f : RepositoriesFile}
    (h : ∀ v ∈ f.repositories, v.Storable RepositoriesFile.entryDepth) :
    ∃ l, Begins (hostWithFile f) (some ⟨"r.yaml"⟩) f ⟨"/work/."⟩ l := by
  have hfind : (hostWithFile f).files.find (.standing ⟨"/work"⟩) ⟨"r.yaml"⟩ =
      .ok (.file f.toYaml.toUTF8) := rfl
  have hread : (hostWithFile f).readText ⟨"r.yaml"⟩ =
      (hostWithFile f).files.readText (.standing ⟨"/work"⟩) ⟨"r.yaml"⟩ := rfl
  have htext : (hostWithFile f).readText ⟨"r.yaml"⟩ = .ok f.toYaml := by
    rw [hread, FileSystem.readText, hfind]
    simp only [Text.fromUTF8?_toUTF8]
  have hlegible : (hostWithFile f).Legible := by
    simp [Host.Legible, hostWithFile]
  exact ⟨_, ⟨_, .read (.named _) htext (RepositoriesFile.ofYaml_toYaml h), rfl⟩,
    f.locator_eq_ok_iff.2 ⟨hlegible, rfl⟩⟩

/-- A file with a Maven repository of some name and URL. -/
def fileWithName (name url : String) : RepositoriesFile where
  repositories := [.object [("name", .string name), ("url", .string url)]]

lemma resolve_fileWithName (name url : String) :
    resolve (hostWithFile (fileWithName name url)) (some ⟨"r.yaml"⟩) =
      .ok [⟨name, .maven, url, false⟩] := by
  have hkeys : [("name", Json.string name), ("url", .string url)].Pairwise fun a b => a.1 < b.1 :=
    List.pairwise_pair.2 (show "name" < "url" by decide)
  have hstorable : ∀ v ∈ (fileWithName name url).repositories,
      v.Storable RepositoriesFile.entryDepth := by
    intro v hv
    obtain rfl := List.mem_singleton.1 hv
    exact .object hkeys (by simp [Json.Storable.string])
  have hdeclare : ∀ f : Factory,
      let r : MavenRepository := { (f.maven 0).1 with name, url := some url }
      Roster.declare f (.object [("name", .string name), ("url", .string url)]) {} =
        (.ok (.maven r), { declared := [.maven r], used := 1 }) := by
    intro f r
    have hm := Properties.ofList_entries ⟨_, hkeys⟩
    rw [Roster.declare_eq, Roster.Request.ofEntry, hm]
    simp only [Roster.Request.ofValue, hm]
    rfl
  obtain ⟨l, hbegins⟩ := begins_hostWithFile hstorable
  exact resolve_of_declares ⟨_, _, l, hbegins, .cons (hdeclare _) (.nil _)⟩

/-- A name with letters of two octets, which is padded by its characters, and a URL with a character
that separates lines without being a line feed. -/
theorem table_by_lines_umlaut : ∃ rows,
    resolve (hostWithFile (fileWithName "größe" "u\u2028v")) (some ⟨"r.yaml"⟩) = .ok rows ∧
      (linesOf (table rows)).length = 3 ∧
      (linesOf (table rows))[2]? = some ("größe" ++ Row.spaces 15 ++ " maven      u\u2028v") := by
  have hrows := resolve_fileWithName "größe" "u\u2028v"
  obtain ⟨s, -, hdeclared, -, hlength, hlines⟩ := table_by_lines hrows
  have hnone : ∀ r ∈ s.declared, ∀ text ∈ r.shownTexts, '\n' ∉ text.toList := by
    intro r hr
    have hrow : Row.ofRepository r ∈ s.declared.map Row.ofRepository := List.mem_map_of_mem hr
    rw [← hdeclared, List.mem_singleton] at hrow
    rw [← Row.lineFeeds_line_eq_zero_iff, hrow]
    decide +kernel
  refine ⟨_, hrows, hlength.2 hnone, ?_⟩
  rw [hlines hnone 0 _ rfl]
  decide +kernel

/-- One repository is declared, with a name that makes the table that of two. -/
theorem table_forged_by_name :
    let a : Row := ⟨"a", .maven, "u", false⟩
    let b : Row := ⟨"b", .maven, "v", false⟩
    ∃ rows, resolve (hostWithFile (fileWithName (a.laidOut ++ "\n" ++ Row.pad 20 "b") "v"))
        (some ⟨"r.yaml"⟩) = .ok rows ∧
      rows.length = 1 ∧ (linesOf (table rows)).length = 4 ∧ table rows = table [a, b] := by
  intro a b
  refine ⟨_, resolve_fileWithName _ _, rfl, ?_, ?_⟩
  · decide +kernel
  · decide +kernel

end Command

end Depot
