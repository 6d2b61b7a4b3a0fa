import CatalogFilter.Proofs.Catalog.Resolution
import CatalogFilter.Proofs.Criterion.Structure
import CatalogFilter.Proofs.Order.LookUp
import CatalogFilter.Proofs.Statement.Joins
import CatalogFilter.Proofs.Token.Margins

/-!
# The names in a statement

A statement selects a field by its table and its own name, each in quotes where it needs them.  A filter that
compares the field is read first, and then written again: its name is by then one text, and is cut at every
point.  So the two agree exactly if neither name has a point in it.  And the base table is written as it is,
without the quotes that it is selected with: the two agree exactly if it needs none.

**Main statements**: `Sql.name_eq_field_iff` and `Statement.sql_names`.
-/

namespace CatalogFilter

open Text

/-! ## §1 Names with points -/

namespace Sql

theorem name_of_no_point {cs : List Char} (h : '.' ∉ cs) : name cs = namePart cs := by
  simp [name, List.splitOn_eq_singleton h]

/-- A name is cut at each of its points. -/
theorem name_point (front back : List Char) :
    name (front ++ '.' :: back) = name front ++ '.' :: name back := by
  have hform : ∀ cs, name cs = Lexer.nameOf ((cs.splitOn '.').map namePart) := fun _ => rfl
  -- a name has a part at least, so the point joins the last part of one to the first of the other
  have hne : ∀ cs : List Char, (cs.splitOn '.').map namePart ≠ [] := by simp
  rw [hform, hform, hform, List.splitOn_append_cons_self, List.map_append,
    Lexer.nameOf_append (hne back), Lexer.stem_eq (hne front)]
  simp

/-- What has a point in it is never written alike as a name and as a part, whatever follows. -/
theorem name_append_ne {cs : List Char} (h : '.' ∈ cs) (xs ys : List Char) :
    name cs ++ xs ≠ namePart cs ++ ys := by
  obtain ⟨part, rest, rfl, hpart⟩ := List.eq_append_cons_of_mem h
  -- with a point in it the part needs quotes
  have hplain : isPlainPart (part ++ '.' :: rest) = false :=
    Bool.eq_false_iff.2 fun hp => Lexer.point_not_mem_of_isPlainPart hp h
  rw [name_point, name_of_no_point hpart, Lexer.namePart_of_not_plain hplain]
  intro heq
  cases hp : isPlainPart part with
  | true =>
    -- the name begins without quotes
    obtain ⟨c, cs, rfl⟩ := List.exists_cons_of_ne_nil (Lexer.ne_nil_of_isPlainPart hp)
    have hc := Lexer.startsPlain_of_isPlainPart hp
    rw [Lexer.namePart_of_plain hp] at heq
    have hquote : c = '"' := by
      simp only [quoted, List.cons_append, List.cons.injEq] at heq
      exact heq.1
    exact absurd (hquote ▸ hc) (by decide)
  | false =>
    -- the quotes of the name end before the point
    rw [Lexer.namePart_of_not_plain hp] at heq
    simp [quoted, doubled_append, doubled] at heq

/-- **A field is written as the parts of its name** exactly if neither its table nor itself has a point in
its name. -/
theorem name_eq_field_iff {table field : List Char} :
    name (table ++ '.' :: field) = Sql.field table field ↔ '.' ∉ table ∧ '.' ∉ field := by
  rw [name_point, Sql.field]
  constructor
  · intro h
    -- a table with a point is quoted as one part, and cut as a name
    have htable : '.' ∉ table := fun hm => name_append_ne hm _ _ h
    rw [name_of_no_point htable] at h
    have hfield : name field = namePart field := (List.cons.inj (List.append_cancel_left h)).2
    exact ⟨htable, fun hm => name_append_ne hm [] [] (by rw [hfield])⟩
  · rintro ⟨htable, hfield⟩
    rw [name_of_no_point htable, name_of_no_point hfield]

/-- Quotes make a name longer. -/
theorem eq_namePart_iff {cs : List Char} : cs = namePart cs ↔ isPlainPart cs = true := by
  constructor
  · intro h
    apply Decidable.of_not_not
    intro hplain
    rw [Lexer.namePart_of_not_plain (by simpa using hplain)] at h
    -- two quotes more than the name and its doubled quotes
    have hlength := congrArg List.length h
    have hle := length_le_length_doubled '"' cs
    simp only [quoted, List.length_cons, List.length_append, List.length_nil] at hlength
    omega
  · exact fun h => (Lexer.namePart_of_plain h).symm

end Sql

/-! ## §2 Terms that are written again -/

namespace Expr

@[simp] theorem placed_name (name : String) : placed 5 (.name name) = Sql.name name.toList := by
  rw [placed_of_le (Nat.le_refl 5), render]

@[simp] theorem placed_literal (kind : LiteralKind) (value : String) :
    placed 5 (.literal kind value) = Sql.literal kind value.toList := by
  rw [placed_of_le (Nat.le_refl 5), render]

end Expr

theorem literal_of_isNumeric {value : String} (h : isNumeric value.toList = true) :
    Sql.literal .number value.toList = value.toList := by
  simp only [isNumeric, Bool.and_eq_true] at h
  simp [Sql.literal, h.1]

theorem placed_valueExpr (value : String) :
    (valueExpr value).placed 5 = Predicate.operand value.toList := by
  unfold valueExpr Predicate.operand
  split
  next h => rw [Expr.placed_literal, literal_of_isNumeric h]
  next => exact Expr.placed_literal .string value

theorem Pattern.render_expr (name : String) (p : Pattern) :
    (p.expr (.name name)).render = p.likeSql (Sql.name name.toList) := by
  -- the part before a possible escape clause
  have hlike : (Expr.binary .like (.name name) (.literal .string (String.ofList p.likeText))).render =
      Sql.name name.toList ++ " LIKE ".toList ++ Sql.string p.likeText := by
    rw [Expr.render_compared (by decide)]
    simp [Sql.literal, joinedBy, Operator.text]
  unfold expr likeSql likeEscape
  split
  next =>
    rw [Expr.render_escape, Expr.placed_of_le (Nat.le_refl 4), hlike]
    simp [Sql.literal, joinedBy, Keyword.text]
  next => rw [hlike]

namespace Predicate

/-- A term is its field and what stands after it. -/
theorem render_eq_append (p : Predicate) (field : List Char) : p.render field = field ++ p.render [] := by
  -- patterns are written behind the field, with their escape clause last
  have hlike : ∀ q : Pattern, q.likeSql field = field ++ q.likeSql [] := by
    intro q
    unfold Pattern.likeSql
    cases q.likeEscape <;> simp
  cases p with
  | like pattern => exact hlike _
  | contains text => exact hlike _
  | between | regexp | compare | isNull | isNotNull => simp [render]

/-- A comparison of a name is written as the term of its predicate, with the name in the place of the
field. -/
theorem render_expr {p : Predicate} (h : p.WellFormed) (name : String) :
    (p.expr (.name name)).render = p.render (Sql.name name.toList) := by
  cases p with
  | between low high =>
    rw [expr, Expr.render_between]
    simp [literal_of_isNumeric h.1, literal_of_isNumeric h.2, joinedBy, render, Keyword.text]
  | compare comparison value =>
    rw [expr, Expr.render_compared comparison.keywords_operator, comparison.text_operator]
    simp [placed_valueExpr, joinedBy, render]
  | regexp | isNull | isNotNull =>
    rw [expr, Expr.render_compared (by decide)]
    simp [Sql.literal, joinedBy, render, Operator.text]
  | like pattern => exact Pattern.render_expr name _
  | contains text => exact Pattern.render_expr name _

end Predicate

/-! ## §3 Sets with one criterion -/

namespace FilterSet

/-- The set with one criterion, for one column. -/
def single (id criterion : String) : FilterSet := ⟨[SortedMap.empty.insert id criterion]⟩

theorem alternatives_single {catalog : Catalog} {column : Column} {ref : FieldRef} {p : Predicate}
    {criterion : String} (hmem : column ∈ catalog.columns) (href : column.filterField = some ref)
    (hp : Predicate.ofCriterion? criterion = some p) :
    (single column.id criterion).alternatives catalog = [[(ref, p)]] := by
  let row : CriteriaRow := SortedMap.empty.insert column.id criterion
  have hget : ∀ id, row.get? id = if column.id = id then some criterion else none :=
    fun id => SortedMap.get?_insert .empty column.id id criterion
  -- no other column is asked for
  have hother : ∀ others : List Column, (∀ other ∈ others, other.id ≠ column.id) →
      others.filterMap row.asked? = [] := by
    intro others h
    apply List.filterMap_eq_nil_iff.2
    intro other ho
    simp [CriteriaRow.asked?, hget, Ne.symm (h other ho)]
  have hself : row.asked? column = some (ref, p) :=
    CriteriaRow.asked?_eq_some_iff.2 ⟨criterion, by simp [hget], hp, href⟩
  have hasked : row.asked catalog = [(ref, p)] := by
    obtain ⟨before, after, hcolumns, hbefore, hafter⟩ := Catalog.exists_of_mem hmem
    rw [CriteriaRow.asked, hcolumns, List.filterMap_append, List.filterMap_cons_some hself,
      hother before hbefore, hother after hafter]
    rfl
  simp [single, alternatives, row, hasked]

/-- The text of a set with one criterion is read as the comparison of its predicate. -/
theorem ofString_single {catalog : Catalog} {column : Column} {ref : FieldRef} {p : Predicate}
    {criterion : String} (hmem : column ∈ catalog.columns) (href : column.filterField = some ref)
    (hp : Predicate.ofCriterion? criterion = some p) :
    Expr.ofString ((single column.id criterion).sql catalog) = .ok (p.expr ref.expr) := by
  have hterm : Reads (.chain .or) 0 (p.render ref.render) (p.expr ref.expr) :=
    (Predicate.reads_render (Predicate.wellFormed_of_ofCriterion? hp) ref).raise (by simp) (by decide)
  -- the only term stands in the parentheses of the only alternative
  have hgroup : Reads .operand 1 ('(' :: (p.render ref.render ++ [')'])) (p.expr ref.expr) := hterm.group
  have htext : (single column.id criterion).render catalog = '(' :: (p.render ref.render ++ [')']) := by
    rw [render_eq, alternatives_single hmem href hp]
    simp [alternativeText, group]
  rw [Expr.ofString, sql, String.toList_ofList, htext]
  exact Reads.parse (hgroup.raise (by simp) (by decide)) (by decide)

end FilterSet

/-! ## §4 Statements -/

namespace Plan

/-- The ordering of a statement, as it is written. -/
def orderText (p : Plan) : List Char :=
  if p.ordering.isEmpty then []
  else " ORDER BY ".toList ++
    ", ".toList.intercalate (p.ordering.map fun (field, ascending) => orderTerm field ascending)

theorem closing_eq {p : Plan} (h : p.condition ≠ []) :
    p.closing = " WHERE ".toList ++ p.condition ++ p.orderText := by
  rw [closing, if_neg (by simpa using h)]
  rfl

end Plan

/-- What is filtered by one criterion is written with the field's name cut at its points. -/
theorem View.condition_single {catalog : Catalog} {v : View} {column : Column} {ref : FieldRef}
    {p : Predicate} {criterion : String} (hmem : column ∈ catalog.columns)
    (href : column.filterField = some ref) (hp : Predicate.ofCriterion? criterion = some p)
    (hfilter : v.filter = (FilterSet.single column.id criterion).sql catalog) :
    v.condition = Sql.name ref.dotted.toList ++ p.render [] := by
  -- the filter is read, and the expression is written again
  have hexpr : v.filterExpr? = some (p.expr ref.expr) := by
    rw [View.filterExpr?_eq_some_iff, Expr.ofString_trimmed, hfilter]
    exact FilterSet.ofString_single hmem href hp
  calc v.condition = (p.expr ref.expr).render := by simp [condition, hexpr]
    _ = p.render (Sql.name ref.dotted.toList) :=
        Predicate.render_expr (Predicate.wellFormed_of_ofCriterion? hp) ref.dotted
    _ = Sql.name ref.dotted.toList ++ p.render [] := p.render_eq_append _

/-- **The names in a statement** that shows a column and filters it by one criterion.  The field of the column
is selected, and compared in the condition.  It stands there as it is selected exactly if neither its table
nor itself has a point in its name.  And the base table stands behind `FROM` as it is selected exactly if it
needs no quotes. -/
theorem Statement.sql_names (s : Schema) (v : View) {column : Column} {ref : FieldRef} {criterion : String}
    (hmem : column ∈ s.catalog.columns) (hshown : column.id ∈ v.columns)
    (href : column.filterField = some ref) (hcriterion : trim criterion.toList ≠ [])
    (hfilter : v.filter = (FilterSet.single column.id criterion).sql s.catalog) :
    ∃ p, Predicate.ofCriterion? criterion = some p ∧
      (Statement.ofView s v).sql.toList =
        "SELECT ".toList ++ ", ".toList.intercalate ((Plan.ofView s v).select.map FieldRef.render) ++
        " FROM ".toList ++ s.baseTable.toList ++
        (Plan.joined s v).flatMap (fun spec => ' ' :: spec.clause.toList) ++
        (" WHERE ".toList ++ (Sql.name ref.dotted.toList ++ p.render []) ++ (Plan.ofView s v).orderText) ∧
      ref ∈ (Plan.ofView s v).select ∧
      (Sql.name ref.dotted.toList = ref.render ↔ '.' ∉ ref.table.toList ∧ '.' ∉ ref.field.toList) ∧
      (s.baseTable.toList = Sql.namePart s.baseTable.toList ↔
        Sql.isPlainPart s.baseTable.toList = true) := by
  obtain ⟨p, hp⟩ := Option.ne_none_iff_exists'.1 (mt Predicate.ofCriterion?_eq_none_iff.1 hcriterion)
  have hcondition : (Plan.ofView s v).condition = Sql.name ref.dotted.toList ++ p.render [] :=
    View.condition_single hmem href hp hfilter
  -- a condition is written, for the name of the field has a point
  have hsome : (Plan.ofView s v).condition ≠ [] := by
    rw [hcondition, ref.toList_dotted, Sql.name_point]
    simp
  refine ⟨p, hp, ?_, ?_, ?_, Sql.eq_namePart_iff⟩
  · rw [Statement.toList_sql, Plan.closing_eq hsome, hcondition]
    rfl
  · have hselected : (column.id, ref) ∈ v.selected s.catalog :=
      View.mem_selected_iff.2 ⟨hshown, column, Catalog.get?_of_mem hmem, href⟩
    exact List.mem_append.2 (.inr (List.mem_map.2 ⟨_, hselected, rfl⟩))
  · rw [ref.toList_dotted]
    exact Sql.name_eq_field_iff

/-- A field that needs quotes in a table that needs none. -/
theorem Statement.sql_names_quoted :
    let ref : FieldRef := ⟨"Games", "Play Count"⟩
    let column : Column := ⟨"plays", "Plays", some ref, .number, true, true⟩
    let s : Schema := ⟨"Games", [⟨"Games", "id"⟩], .ofCompatible [column] (List.pairwise_singleton _ _), .empty⟩
    let v : View := ⟨["plays"], (FilterSet.single "plays" " >10 ").sql s.catalog, []⟩
    trim " >10 ".toList ≠ [] ∧ column ∈ s.catalog.columns ∧ "plays" ∈ v.columns ∧
    Sql.name ref.dotted.toList = ref.render ∧
    s.baseTable.toList = Sql.namePart s.baseTable.toList ∧
    (Statement.ofView s v).sql =
      "SELECT Games.id, Games.\"Play Count\" FROM Games WHERE Games.\"Play Count\" > 10" := by
  intro ref column s v
  have hcriterion : trim " >10 ".toList ≠ [] := by decide +kernel
  have hmem : column ∈ s.catalog.columns := List.mem_singleton_self column
  have hshown : column.id ∈ v.columns := List.mem_singleton_self "plays"
  have href : column.filterField = some ref := rfl
  obtain ⟨_, _, _, _, hfield, hbase⟩ := Statement.sql_names s v hmem hshown href hcriterion rfl
  exact ⟨hcriterion, hmem, hshown, hfield.2 (by decide +kernel), hbase.2 (by decide +kernel),
    by decide +kernel⟩

/-- A base table that needs quotes, and a field with a point in its name. -/
theorem Statement.sql_names_apart :
    let ref : FieldRef := ⟨"My Games", "a.b"⟩
    let column : Column := ⟨"n", "N", some ref, .text, true, true⟩
    let s : Schema := ⟨"My Games", [], .ofCompatible [column] (List.pairwise_singleton _ _), .empty⟩
    let v : View := ⟨["n"], (FilterSet.single "n" "pac").sql s.catalog, []⟩
    Schema.ofDefinition ⟨"My Games", [], [column], []⟩ = .ok s ∧
    v.filter = "(\"My Games\".\"a.b\" LIKE '%pac%')" ∧
    (Statement.ofView s v).sql =
      "SELECT \"My Games\".\"a.b\" FROM My Games WHERE \"My Games\".a.b LIKE '%pac%'" ∧
    Sql.name ref.dotted.toList ≠ ref.render ∧ s.baseTable.toList ≠ Sql.namePart s.baseTable.toList := by
  decide +kernel

end CatalogFilter
