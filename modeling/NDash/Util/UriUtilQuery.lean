import Mathlib.Data.List.Basic
import NDash.Util.UriUtilIndices

set_option autoImplicit false

namespace NDash.Util.UriUtil

open Uri

-- StringPiece::npos, once it is in an int.
def npos : Int := -1

def indexOf (piece : Text) (char : Char) (start : Nat) : Int :=
  match findFrom piece char start with
  | none => npos
  | some index => index

-- StringPiece::substr goes no further than the end; its count is unsigned, so that a negative one
-- is as good as none.
def substr (piece : Text) (start : Nat) (count : Int) : Text :=
  if count < 0 then piece.drop start else (piece.drop start).take count.toNat

structure Pieces where
  query : Text := []
  schemeAndPath : Text := []
  fragment : Text := []
deriving DecidableEq, Repr

def findPieces (uri : Text) : Pieces :=
  let indices := getUriIndices uri
  let queryStart := indices.query
  let queryEnd := indices.fragment
  if queryStart = 0 then {}
  else
    let queryStart := queryStart + 1
    { query := substr uri queryStart ((queryEnd : Int) - queryStart)
      schemeAndPath := substr uri 0 queryStart
      fragment := substr uri queryEnd npos }

theorem indexOf_absent {piece : Text} {char : Char} {start : Nat}
    (absent : char ∉ piece.drop start) : indexOf piece char start = npos := by
  simp [indexOf, findFrom, find_absent absent]

theorem indexOf_first {piece front rest : Text} {char : Char} {start : Nat}
    (split : piece.drop start = front ++ char :: rest) (plain : char ∉ front) :
    indexOf piece char start = start + front.length := by
  simp [indexOf, findFrom, split, find_append plain, find_self]
  omega

theorem indexOf_bounds {piece : Text} {char : Char} {start : Nat}
    (found : indexOf piece char start ≠ npos) :
    start ≤ (indexOf piece char start).toNat ∧ (indexOf piece char start).toNat < piece.length := by
  by_cases present : char ∈ piece.drop start
  · obtain ⟨front, rest, split, plain⟩ := List.eq_append_cons_of_mem present
    have size := congrArg List.length split
    rw [indexOf_first split plain]
    simp only [List.length_drop, List.length_append, List.length_cons] at size
    omega
  · exact absurd (indexOf_absent present) found

def getQueryParamFrom (query paramName : Text) (start : Nat) : Text :=
  let stop := indexOf query '&' start
  let param := substr query start (stop - start)
  let eq := indexOf param '=' 0
  if eq ≠ npos ∧ substr param 0 eq = paramName then substr param (eq.toNat + 1) npos
  else if going : stop ≠ npos then getQueryParamFrom query paramName (stop.toNat + 1)
  else []
termination_by query.length - start
decreasing_by
  have := indexOf_bounds going
  omega

def getQueryParam (uri paramName : Text) : Text :=
  getQueryParamFrom (findPieces uri).query paramName 0

def removeQueryParamFrom (query paramName : Text) (start : Nat) (needAmpersand : Bool)
    (out : Text) : Text :=
  let stop := indexOf query '&' start
  let param :=
    if stop ≠ npos then substr query start (stop - start) else substr query start npos
  let eq := indexOf param '=' 0
  let name := substr param 0 eq
  let kept := name ≠ paramName
  let out := if kept then out ++ (if needAmpersand then ['&'] else []) ++ param else out
  let needAmpersand := needAmpersand || kept
  if going : stop ≠ npos then
    removeQueryParamFrom query paramName (stop.toNat + 1) needAmpersand out
  else out
termination_by query.length - start
decreasing_by
  have := indexOf_bounds going
  omega

def removeQueryParam (uri paramName : Text) : Text :=
  let pieces := findPieces uri
  removeQueryParamFrom pieces.query paramName 0 false pieces.schemeAndPath ++ pieces.fragment

section Split

variable {front : Text} {char : Char} (plain : char ∉ front) (rest : Text)
include plain

theorem before_ne : ∀ c ∈ front, (decide (c ≠ char)) = true :=
  fun _ member => decide_eq_true fun same => plain (same ▸ member)

theorem takeWhile_split : (front ++ char :: rest).takeWhile (· ≠ char) = front := by
  rw [List.takeWhile_append_of_pos (before_ne plain), List.takeWhile_cons_of_neg (by simp),
    List.append_nil]

theorem dropWhile_split : (front ++ char :: rest).dropWhile (· ≠ char) = char :: rest := by
  rw [List.dropWhile_append_of_pos (before_ne plain), List.dropWhile_cons_of_neg (by simp)]

theorem takeWhile_absent : front.takeWhile (· ≠ char) = front :=
  List.takeWhile_eq_self_iff.mpr (before_ne plain)

theorem dropWhile_absent : front.dropWhile (· ≠ char) = [] :=
  List.dropWhile_eq_nil_iff.mpr (before_ne plain)

end Split

/-! The parameters of a query -/

def nameOf (param : Text) : Text := param.takeWhile (· ≠ '=')

def valueOf (name : Text) : List Text → Text
  | [] => []
  | param :: params =>
    if '=' ∈ param ∧ nameOf param = name then (param.dropWhile (· ≠ '=')).drop 1
    else valueOf name params

def without (name : Text) (params : List Text) : List Text :=
  params.filter fun param => nameOf param ≠ name

theorem valueOf_eq_nil {name : Text} {params : List Text}
    (absent : ∀ param ∈ params, nameOf param ≠ name) : valueOf name params = [] := by
  induction params with
  | nil => rfl
  | cons param params ih =>
    obtain ⟨other, absent⟩ := List.forall_mem_cons.mp absent
    rw [valueOf, if_neg fun same => other same.2, ih absent]

theorem nameOf_without {name : Text} {params : List Text} :
    ∀ param ∈ without name params, nameOf param ≠ name := by
  intro param member
  simpa using (List.mem_filter.mp member).2

theorem valueOf_without {name other : Text} (apart : other ≠ name) (params : List Text) :
    valueOf other (without name params) = valueOf other params := by
  induction params with
  | nil => rfl
  | cons param params ih =>
    unfold without at ih ⊢
    by_cases same : nameOf param = name
    · have unlike : nameOf param ≠ other := fun equal => apart (equal.symm.trans same)
      rw [List.filter_cons_of_neg (by simpa using same), ih, valueOf,
        if_neg fun named => unlike named.2]
    · rw [List.filter_cons_of_pos (by simpa using same), valueOf, valueOf, ih]

theorem without_eq_self {name : Text} {params : List Text}
    (absent : ∀ param ∈ params, nameOf param ≠ name) : without name params = params :=
  List.filter_eq_self.mpr fun param member => decide_eq_true (absent param member)

theorem substr_to_end (piece : Text) (start : Nat) {count : Int} (none : count < 0) :
    substr piece start count = piece.drop start :=
  if_pos none

theorem substr_first {piece front rest : Text} {char : Char} {start : Nat}
    (split : piece.drop start = front ++ char :: rest) (plain : char ∉ front) :
    substr piece start (indexOf piece char start - start) = front := by
  have size : ((start + front.length : Nat) : Int) - start = front.length := by omega
  rw [indexOf_first split plain, ← Int.natCast_add, size, substr, if_neg (by omega), split]
  simp

theorem drop_first {piece front rest : Text} {char : Char} {start : Nat}
    (split : piece.drop start = front ++ char :: rest) (plain : char ∉ front) :
    piece.drop ((indexOf piece char start).toNat + 1) = rest := by
  have index : (indexOf piece char start).toNat = start + front.length := by
    rw [indexOf_first split plain]
    omega
  rw [index, Nat.add_assoc, ← List.drop_drop, split, ← List.drop_drop, List.drop_left,
    List.drop_one, List.tail_cons]

theorem substr_name (param : Text) : substr param 0 (indexOf param '=' 0) = nameOf param := by
  by_cases present : '=' ∈ param
  · obtain ⟨name, value, split, plain⟩ := List.eq_append_cons_of_mem present
    have whole : param.drop 0 = name ++ '=' :: value := by rwa [List.drop_zero]
    have first := substr_first whole plain
    rw [Int.natCast_zero, Int.sub_zero] at first
    rw [first, nameOf, split, takeWhile_split plain]
  · rw [indexOf_absent (by rwa [List.drop_zero]), substr_to_end _ _ (by decide), List.drop_zero,
      nameOf, takeWhile_absent present]

theorem indexOf_eq_npos_iff (param : Text) : indexOf param '=' 0 ≠ npos ↔ '=' ∈ param := by
  constructor
  · intro found
    by_contra absent
    exact found (indexOf_absent (by rwa [List.drop_zero]))
  · intro present
    obtain ⟨name, value, split, plain⟩ := List.eq_append_cons_of_mem present
    have whole : param.drop 0 = name ++ '=' :: value := by rwa [List.drop_zero]
    rw [indexOf_first whole plain, npos]
    omega

theorem substr_value {param : Text} (present : '=' ∈ param) :
    substr param ((indexOf param '=' 0).toNat + 1) npos = (param.dropWhile (· ≠ '=')).drop 1 := by
  obtain ⟨name, value, split, plain⟩ := List.eq_append_cons_of_mem present
  have whole : param.drop 0 = name ++ '=' :: value := by rwa [List.drop_zero]
  have index : (indexOf param '=' 0).toNat = name.length := by
    rw [indexOf_first whole plain]
    omega
  rw [index, substr_to_end _ _ (by decide), split, dropWhile_split plain, ← List.drop_drop,
    List.drop_left]

theorem value_or (name param otherwise : Text) :
    (if indexOf param '=' 0 ≠ npos ∧ substr param 0 (indexOf param '=' 0) = name then
      substr param ((indexOf param '=' 0).toNat + 1) npos
    else otherwise) =
      if '=' ∈ param ∧ nameOf param = name then (param.dropWhile (· ≠ '=')).drop 1
      else otherwise := by
  simp only [substr_name, indexOf_eq_npos_iff]
  split
  · next named => exact substr_value named.1
  · rfl

theorem getQueryParamFrom_eq (query name : Text) (start : Nat) :
    getQueryParamFrom query name start = valueOf name ((query.drop start).splitOn '&') := by
  rw [getQueryParamFrom, value_or]
  by_cases present : '&' ∈ query.drop start
  · obtain ⟨param, rest, split, plain⟩ := List.eq_append_cons_of_mem present
    have going : indexOf query '&' start ≠ npos := by
      rw [indexOf_first split plain, npos]
      omega
    have later := getQueryParamFrom_eq query name ((indexOf query '&' start).toNat + 1)
    rw [dif_pos going, later, drop_first split plain, split, substr_first split plain,
      List.splitOn_append_cons_self_of_not_mem plain, valueOf]
  · have ended := indexOf_absent present
    rw [ended, dif_neg (by simp), substr_to_end _ _ (by rw [npos]; omega),
      List.splitOn_eq_singleton present, valueOf, valueOf]
termination_by query.length - start
decreasing_by
  have := indexOf_bounds going
  omega

def appended (needAmpersand : Bool) (params : List Text) : Text :=
  if needAmpersand then params.flatMap ('&' :: ·) else ['&'].intercalate params

theorem appended_cons (needAmpersand : Bool) (param : Text) (params : List Text) :
    appended needAmpersand (param :: params) =
      (if needAmpersand then ['&'] else []) ++ param ++ appended true params := by
  have joined : ['&'].intercalate (param :: params) = param ++ params.flatMap ('&' :: ·) := by
    induction params generalizing param with
    | nil => simp
    | cons next params ih => rw [List.intercalate_cons_cons, ih, List.flatMap_cons]; simp
  cases needAmpersand
  · simpa [appended] using joined
  · simp [appended]

theorem appended_without (name param out : Text) (needAmpersand : Bool) (params : List Text) :
    (if nameOf param ≠ name then out ++ (if needAmpersand then ['&'] else []) ++ param else out) ++
        appended (needAmpersand || decide (nameOf param ≠ name)) (without name params) =
      out ++ appended needAmpersand (without name (param :: params)) := by
  by_cases same : nameOf param = name
  · have dropped : without name (param :: params) = without name params :=
      List.filter_cons_of_neg (by simpa using same)
    rw [dropped, if_neg (not_not_intro same), decide_eq_false (not_not_intro same), Bool.or_false]
  · have kept : without name (param :: params) = param :: without name params :=
      List.filter_cons_of_pos (by simpa using same)
    rw [kept, if_pos same, decide_eq_true same, Bool.or_true, appended_cons]
    simp only [List.append_assoc]

theorem removeQueryParamFrom_eq (query name : Text) (start : Nat) (needAmpersand : Bool)
    (out : Text) :
    removeQueryParamFrom query name start needAmpersand out =
      out ++ appended needAmpersand (without name ((query.drop start).splitOn '&')) := by
  rw [removeQueryParamFrom]
  by_cases present : '&' ∈ query.drop start
  · obtain ⟨param, rest, split, plain⟩ := List.eq_append_cons_of_mem present
    have going : indexOf query '&' start ≠ npos := by
      rw [indexOf_first split plain, npos]
      omega
    rw [dif_pos going, if_pos going, removeQueryParamFrom_eq, drop_first split plain, split,
      substr_first split plain, substr_name, List.splitOn_append_cons_self_of_not_mem plain]
    exact appended_without name param out needAmpersand _
  · have ended := indexOf_absent present
    have last := appended_without name (query.drop start) out needAmpersand []
    have nothing (need : Bool) : appended need (without name []) = [] := by cases need <;> rfl
    rw [nothing, List.append_nil] at last
    rw [ended, dif_neg (not_not_intro rfl), if_neg (not_not_intro (Eq.refl npos)),
      substr_name, substr_to_end _ _ (by decide), List.splitOn_eq_singleton present, last]
termination_by query.length - start
decreasing_by
  have := indexOf_bounds going
  omega

/-! The parts of a URI around its parameters -/

def beforeFragment (uri : Text) : Text := uri.takeWhile (· ≠ '#')

def fragmentPart (uri : Text) : Text := uri.dropWhile (· ≠ '#')

def beforeQuery (uri : Text) : Text := (beforeFragment uri).takeWhile (· ≠ '?')

def queryPart (uri : Text) : Text := (beforeFragment uri).dropWhile (· ≠ '?')

def queryParams (uri : Text) : List Text :=
  match queryPart uri with
  | [] => []
  | _ :: query => query.splitOn '&'

def withParams (uri : Text) (params : List Text) : Text :=
  beforeQuery uri ++ (queryPart uri).take 1 ++ ['&'].intercalate params ++ fragmentPart uri

-- Something stands before the query, and there is a query where there is a fragment.
def Regular (uri : Text) : Prop :=
  uri.head? ≠ some '?' ∧ ('#' ∈ uri → '?' ∈ beforeFragment uri)

/-- What editing the parameters of one name means. -/
structure ExactEditing (uri paramName : Text) : Prop where
  removes : removeQueryParam uri paramName =
    withParams uri (without paramName (queryParams uri))
  removed : getQueryParam (removeQueryParam uri paramName) paramName = []
  others : ∀ other ≠ paramName,
    getQueryParam (removeQueryParam uri paramName) other = getQueryParam uri other
  twice : removeQueryParam (removeQueryParam uri paramName) paramName =
    removeQueryParam uri paramName
  absent : (∀ param ∈ queryParams uri, nameOf param ≠ paramName) →
    removeQueryParam uri paramName = uri
  inQuery : ∀ name, getQueryParam uri name = valueOf name (queryParams uri)

theorem beforeFragment_append (uri : Text) : beforeFragment uri ++ fragmentPart uri = uri :=
  List.takeWhile_append_dropWhile

theorem beforeQuery_append (uri : Text) :
    beforeQuery uri ++ queryPart uri = beforeFragment uri :=
  List.takeWhile_append_dropWhile

/-- A URI by its parts: nothing but a fragment begins with the first `#`, and nothing but a query
with the first `?` before that. -/
structure Parts (uri head query fragment : Text) : Prop where
  whole : uri = head ++ query ++ fragment
  head : '?' ∉ head ∧ '#' ∉ head
  query : '#' ∉ query ∧ (query = [] ∨ ∃ rest, query = '?' :: rest)
  fragment : fragment = [] ∨ ∃ rest, fragment = '#' :: rest

theorem dropWhile_head {text : Text} {char : Char} :
    text.dropWhile (· ≠ char) = [] ∨ ∃ rest, text.dropWhile (· ≠ char) = char :: rest := by
  by_cases present : char ∈ text
  · obtain ⟨front, rest, rfl, plain⟩ := List.eq_append_cons_of_mem present
    exact .inr ⟨rest, dropWhile_split plain rest⟩
  · exact .inl (dropWhile_absent present)

theorem notMem_takeWhile (text : Text) (char : Char) : char ∉ text.takeWhile (· ≠ char) := by
  intro member
  simpa using List.mem_takeWhile_imp member

theorem parts_of (uri : Text) : Parts uri (beforeQuery uri) (queryPart uri) (fragmentPart uri) where
  whole := by rw [beforeQuery_append, beforeFragment_append]
  head := by
    refine ⟨notMem_takeWhile _ _, fun member => notMem_takeWhile uri '#' ?_⟩
    exact (List.takeWhile_sublist _).subset member
  query := by
    refine ⟨fun member => notMem_takeWhile uri '#' ?_, dropWhile_head⟩
    exact (List.dropWhile_sublist _).subset member
  fragment := dropWhile_head

section Parts

variable {uri head query fragment : Text} (parts : Parts uri head query fragment)
include parts

theorem Parts.beforeFragment_eq :
    beforeFragment uri = head ++ query ∧ fragmentPart uri = fragment := by
  have plain : '#' ∉ head ++ query := by
    rw [List.mem_append, not_or]
    exact ⟨parts.head.2, parts.query.1⟩
  unfold beforeFragment fragmentPart
  rw [parts.whole]
  obtain none | ⟨rest, some⟩ := parts.fragment
  · rw [none, List.append_nil]
    exact ⟨takeWhile_absent plain, dropWhile_absent plain⟩
  · rw [some]
    exact ⟨takeWhile_split plain rest, dropWhile_split plain rest⟩

theorem Parts.beforeQuery_eq : beforeQuery uri = head ∧ queryPart uri = query := by
  unfold beforeQuery queryPart
  rw [parts.beforeFragment_eq.1]
  obtain none | ⟨rest, some⟩ := parts.query.2
  · rw [none, List.append_nil]
    exact ⟨takeWhile_absent parts.head.1, dropWhile_absent parts.head.1⟩
  · rw [some]
    exact ⟨takeWhile_split parts.head.1 rest, dropWhile_split parts.head.1 rest⟩

theorem Parts.indices : (getUriIndices uri).query = head.length ∧
    (getUriIndices uri).fragment = head.length + query.length := by
  by_cases empty : uri.length = 0
  · have nothing := List.length_eq_zero_iff.mp empty
    have whole := parts.whole
    rw [nothing, eq_comm, List.append_eq_nil_iff, List.append_eq_nil_iff] at whole
    obtain ⟨⟨rfl, rfl⟩, -⟩ := whole
    rw [nothing]
    exact ⟨rfl, rfl⟩
  · have plain : '#' ∉ head ++ query := by
      rw [List.mem_append, not_or]
      exact ⟨parts.head.2, parts.query.1⟩
    have fragmentIndex : (find uri '#').getD uri.length = head.length + query.length := by
      rw [parts.whole, find_append plain]
      obtain none | ⟨rest, some⟩ := parts.fragment
      · simp [none, find]
      · simp [some, find_self]
    have queryIndex : upTo (find uri '?') (head.length + query.length) = head.length := by
      rw [parts.whole, List.append_assoc, find_append parts.head.1]
      obtain none | ⟨rest, some⟩ := parts.query.2
      · rw [none, List.length_nil, Nat.add_zero]
        exact upTo_behind _ (Nat.le_refl _)
      · rw [some, List.cons_append, find_self, Option.map_some]
        exact upTo_some (by omega)
    rw [getUriIndices, if_neg empty]
    dsimp only
    rw [fragmentIndex, queryIndex]
    exact ⟨rfl, rfl⟩

theorem Parts.findPieces_start (start : head = []) : findPieces uri = {} := by
  have query : (getUriIndices uri).query = 0 := by rw [parts.indices.1, start, List.length_nil]
  rw [findPieces]
  exact if_pos query

theorem Parts.findPieces_inside (inside : head ≠ []) :
    findPieces uri =
      { query := substr uri (head.length + 1) ((query.length : Int) - 1)
        schemeAndPath := uri.take (head.length + 1)
        fragment := uri.drop (head.length + query.length) } := by
  have positive := List.length_pos_iff.mpr inside
  obtain ⟨queryIndex, fragmentIndex⟩ := parts.indices
  have count : ((head.length + query.length : Nat) : Int) - ((head.length + 1 : Nat) : Int) =
      (query.length : Int) - 1 := by omega
  have whole : ¬ ((head.length + 1 : Nat) : Int) < 0 := by omega
  have path : substr uri 0 ((head.length + 1 : Nat) : Int) = uri.take (head.length + 1) := by
    rw [substr, if_neg whole, List.drop_zero, Int.toNat_natCast]
  have rest (start : Nat) : substr uri start npos = uri.drop start :=
    substr_to_end uri start (by decide)
  rw [findPieces]
  dsimp only
  rw [queryIndex, fragmentIndex, if_neg (by omega), count, path, rest]

theorem Parts.regular_iff :
    Regular uri ↔ (query = [] → fragment = []) ∧ (query ≠ [] → head ≠ []) := by
  have leads : uri.head? = some '?' ↔ query ≠ [] ∧ head = [] := by
    rw [parts.whole]
    obtain none | ⟨rest, some⟩ := parts.query.2 <;> cases start : head with
    | nil => obtain empty | ⟨rest, some⟩ := parts.fragment <;> simp [*]
    | cons first head =>
      have plain := parts.head.1
      rw [start, List.mem_cons, not_or] at plain
      simp [Ne.symm plain.1]
  have hash : '#' ∈ uri ↔ fragment ≠ [] := by
    rw [parts.whole, List.mem_append, List.mem_append]
    obtain empty | ⟨rest, some⟩ := parts.fragment <;>
      simp [*, parts.head.2, parts.query.1]
  have mark : '?' ∈ beforeFragment uri ↔ query ≠ [] := by
    rw [parts.beforeFragment_eq.1, List.mem_append]
    obtain none | ⟨rest, some⟩ := parts.query.2 <;> simp [*, parts.head.1]
  rw [Regular, ne_eq, leads, hash, mark]
  by_cases none : query = []
  · simp [none]
  · simp [none]

theorem Parts.findPieces_regular (regular : Regular uri) :
    findPieces uri =
      { query := query.drop 1, schemeAndPath := head ++ query.take 1, fragment } := by
  obtain ⟨bare, inside⟩ := parts.regular_iff.mp regular
  by_cases start : head = []
  · obtain rfl : query = [] := by
      by_contra present
      exact inside present start
    rw [parts.findPieces_start start, start, bare rfl]
    rfl
  · rw [parts.findPieces_inside start, parts.whole]
    obtain rfl | ⟨rest, rfl⟩ := parts.query.2
    · rw [bare rfl, substr_to_end _ _ (by decide)]
      simp [List.take_of_length_le]
    · have size : ((('?' :: rest).length : Nat) : Int) - 1 = rest.length := by simp
      have split : head ++ '?' :: rest ++ fragment = (head ++ ['?']) ++ (rest ++ fragment) := by
        simp
      have front : head.length + 1 = (head ++ ['?']).length := by simp
      have upToFragment : head.length + ('?' :: rest).length = (head ++ '?' :: rest).length := by
        simp
      rw [size, substr, if_neg (by omega), Int.toNat_natCast, upToFragment, List.drop_left, split,
        front, List.drop_left, List.take_left, List.take_left]
      rfl

end Parts

theorem findPieces_regular {uri : Text} (regular : Regular uri) :
    findPieces uri =
      { query := (queryPart uri).drop 1
        schemeAndPath := beforeQuery uri ++ (queryPart uri).take 1
        fragment := fragmentPart uri } :=
  (parts_of uri).findPieces_regular regular

theorem queryPart_cases (uri : Text) :
    queryPart uri = [] ∨ ∃ query, queryPart uri = '?' :: query :=
  dropWhile_head

theorem getQueryParam_eq {uri : Text} (regular : Regular uri) (name : Text) :
    getQueryParam uri name = valueOf name (queryParams uri) := by
  rw [getQueryParam, findPieces_regular regular, getQueryParamFrom_eq, List.drop_zero, queryParams]
  obtain none | ⟨query, some⟩ := queryPart_cases uri
  · rw [none]
    simp [valueOf]
  · rw [some]
    rfl

theorem intercalate_without_empty (name : Text) : ['&'].intercalate (without name [[]]) = [] := by
  by_cases unnamed : name = []
  · subst unnamed
    rfl
  · have named : ∀ param ∈ [[]], nameOf param ≠ name := by
      intro param member
      rw [List.mem_singleton.mp member]
      exact Ne.symm unnamed
    rw [without_eq_self named]
    rfl

theorem removeQueryParam_eq {uri : Text} (regular : Regular uri) (name : Text) :
    removeQueryParam uri name = withParams uri (without name (queryParams uri)) := by
  rw [removeQueryParam, findPieces_regular regular, removeQueryParamFrom_eq, List.drop_zero,
    withParams, queryParams]
  obtain none | ⟨query, some⟩ := queryPart_cases uri
  · rw [none, List.drop_nil, List.splitOn_nil, appended, if_neg (by decide),
      intercalate_without_empty]
    rfl
  · rw [some]
    rfl

theorem notMem_of_mem_splitOn {text piece : Text} {char : Char}
    (member : piece ∈ text.splitOn char) : char ∉ piece := by
  by_cases present : char ∈ text
  · obtain ⟨front, rest, rfl, plain⟩ := List.eq_append_cons_of_mem present
    rw [List.splitOn_append_cons_self_of_not_mem plain] at member
    obtain rfl | behind := List.mem_cons.mp member
    · exact plain
    · exact notMem_of_mem_splitOn behind
  · rw [List.splitOn_eq_singleton present] at member
    rwa [List.mem_singleton.mp member]
termination_by text.length

-- Splitting what was joined gives it back, except that nothing joins to one empty parameter.
theorem rejoined {params : List Text} (plain : ∀ param ∈ params, '&' ∉ param) (name : Text) :
    valueOf name ((['&'].intercalate params).splitOn '&') = valueOf name params ∧
      ['&'].intercalate (without name ((['&'].intercalate params).splitOn '&')) =
        ['&'].intercalate (without name params) := by
  by_cases nothing : params = []
  · subst nothing
    rw [List.intercalate_nil, List.splitOn_nil, intercalate_without_empty]
    exact ⟨by simp [valueOf], rfl⟩
  · rw [List.splitOn_intercalate '&' plain nothing]
    exact ⟨rfl, rfl⟩

theorem mem_intercalate {params : List Text} {c : Char} (inside : c ≠ '&') :
    c ∈ ['&'].intercalate params ↔ ∃ param ∈ params, c ∈ param := by
  induction params with
  | nil => simp
  | cons param params ih =>
    cases params with
    | nil => simp
    | cons next params =>
      rw [List.intercalate_cons_cons, List.mem_append, List.mem_append, ih]
      simp [inside]

theorem plain_queryParams (uri : Text) :
    ∀ param ∈ queryParams uri, '&' ∉ param ∧ '#' ∉ param := by
  intro param member
  have plain := (parts_of uri).query.1
  rw [queryParams] at member
  obtain none | ⟨query, some⟩ := queryPart_cases uri
  · rw [none] at member
    cases member
  · rw [some] at member plain
    have whole : ['&'].intercalate (query.splitOn '&') = query := List.intercalate_splitOn '&'
    refine ⟨notMem_of_mem_splitOn member, fun inside => plain (List.mem_cons_of_mem _ ?_)⟩
    exact whole ▸ (mem_intercalate (by decide)).mpr ⟨param, member, inside⟩

theorem queryParams_nil {uri : Text} (none : queryPart uri = []) : queryParams uri = [] := by
  rw [queryParams, none]

/-! A URI with other parameters -/

section WithParams

variable {uri : Text} {params : List Text} (kept : params ⊆ queryParams uri)
include kept

theorem parts_withParams :
    Parts (withParams uri params) (beforeQuery uri)
      ((queryPart uri).take 1 ++ ['&'].intercalate params) (fragmentPart uri) where
  whole := by simp [withParams, List.append_assoc]
  head := (parts_of uri).head
  query := by
    have joined : '#' ∉ ['&'].intercalate params := by
      rw [mem_intercalate (by decide)]
      rintro ⟨param, member, inside⟩
      exact (plain_queryParams uri param (kept member)).2 inside
    obtain none | ⟨query, some⟩ := queryPart_cases uri
    · rw [queryParams_nil none, List.subset_nil] at kept
      rw [none, kept]
      exact ⟨by simp, .inl rfl⟩
    · rw [some]
      refine ⟨?_, .inr ⟨['&'].intercalate params, rfl⟩⟩
      simpa using joined
  fragment := (parts_of uri).fragment

theorem regular_withParams (regular : Regular uri) : Regular (withParams uri params) := by
  obtain ⟨bare, inside⟩ := (parts_of uri).regular_iff.mp regular
  refine (parts_withParams kept).regular_iff.mpr ⟨?_, ?_⟩
  · intro nothing
    obtain none | ⟨query, some⟩ := queryPart_cases uri
    · exact bare none
    · rw [some] at nothing
      cases nothing
  · intro present
    obtain none | ⟨query, some⟩ := queryPart_cases uri
    · rw [queryParams_nil none, List.subset_nil] at kept
      rw [none, kept] at present
      exact absurd rfl present
    · exact inside (some ▸ List.cons_ne_nil _ _)

theorem queryParams_withParams :
    queryParams (withParams uri params) =
      if queryPart uri = [] then [] else (['&'].intercalate params).splitOn '&' := by
  rw [queryParams, (parts_withParams kept).beforeQuery_eq.2]
  obtain none | ⟨query, some⟩ := queryPart_cases uri
  · rw [queryParams_nil none, List.subset_nil] at kept
    rw [none, kept, if_pos rfl]
    rfl
  · rw [some, if_neg (List.cons_ne_nil _ _)]
    rfl

theorem plain_of_kept : ∀ param ∈ params, '&' ∉ param :=
  fun param member => (plain_queryParams uri param (kept member)).1

theorem getQueryParam_withParams (regular : Regular uri) (name : Text) :
    getQueryParam (withParams uri params) name = valueOf name params := by
  rw [getQueryParam_eq (regular_withParams kept regular), queryParams_withParams kept]
  split
  · next none =>
    rw [queryParams_nil none, List.subset_nil] at kept
    rw [kept]
  · exact (rejoined (plain_of_kept kept) name).1

theorem removeQueryParam_withParams (regular : Regular uri) (name : Text) :
    removeQueryParam (withParams uri params) name = withParams uri (without name params) := by
  have parts := parts_withParams kept
  rw [removeQueryParam_eq (regular_withParams kept regular), withParams, parts.beforeQuery_eq.1,
    parts.beforeQuery_eq.2, parts.beforeFragment_eq.2, queryParams_withParams kept, withParams]
  obtain none | ⟨query, some⟩ := queryPart_cases uri
  · rw [queryParams_nil none, List.subset_nil] at kept
    rw [none, kept, if_pos rfl]
    rfl
  · rw [some, if_neg (List.cons_ne_nil _ _), (rejoined (plain_of_kept kept) name).2]
    rfl

end WithParams

theorem withParams_queryParams (uri : Text) : withParams uri (queryParams uri) = uri := by
  have whole := (parts_of uri).whole
  rw [withParams, queryParams]
  obtain none | ⟨query, some⟩ := queryPart_cases uri
  · rw [none] at whole ⊢
    simpa using whole.symm
  · rw [some] at whole ⊢
    dsimp only
    rw [List.intercalate_splitOn]
    simpa using whole.symm

theorem exactEditing_of_regular {uri : Text} (regular : Regular uri) (paramName : Text) :
    ExactEditing uri paramName := by
  have kept : without paramName (queryParams uri) ⊆ queryParams uri := List.filter_subset_self _
  have edited := removeQueryParam_eq regular paramName
  constructor
  case removes => exact edited
  case removed =>
    rw [edited, getQueryParam_withParams kept regular, valueOf_eq_nil nameOf_without]
  case others =>
    intro other apart
    rw [edited, getQueryParam_withParams kept regular, valueOf_without apart,
      getQueryParam_eq regular]
  case twice =>
    rw [edited, removeQueryParam_withParams kept regular, without_eq_self nameOf_without]
  case absent =>
    intro absent
    rw [edited, without_eq_self absent, withParams_queryParams]
  case inQuery => exact getQueryParam_eq regular

-- What the early return of FindPieces leaves of the URI.
theorem removeQueryParam_start {uri : Text} (start : beforeQuery uri = []) (paramName : Text) :
    removeQueryParam uri paramName = [] := by
  rw [removeQueryParam, (parts_of uri).findPieces_start start, removeQueryParamFrom_eq,
    List.drop_nil, List.splitOn_nil, appended, if_neg (by decide), intercalate_without_empty]
  rfl

theorem length_removeQueryParam {uri : Text} (inside : beforeQuery uri ≠ [])
    (none : queryPart uri = []) (some : fragmentPart uri ≠ []) (paramName : Text) :
    uri.length < (removeQueryParam uri paramName).length := by
  have size := congrArg List.length (parts_of uri).whole
  have positive := List.length_pos_iff.mpr some
  rw [removeQueryParam, (parts_of uri).findPieces_inside inside, removeQueryParamFrom_eq]
  simp only [none, List.length_append, List.length_take, List.length_drop,
    List.length_nil] at size ⊢
  omega

/-- The parameters of a name are edited as they should be where something stands before the query,
and there is a query if there is a fragment; otherwise they are not, whatever the name. -/
theorem queryEditing_exact_iff (uri paramName : Text) :
    ExactEditing uri paramName ↔ Regular uri := by
  refine ⟨fun exact => (parts_of uri).regular_iff.mpr ?_, fun regular =>
    exactEditing_of_regular regular paramName⟩
  have removes := exact.removes
  constructor
  · intro none
    by_contra some
    have nothing : without paramName [] = [] := rfl
    have whole := withParams_queryParams uri
    rw [queryParams_nil none] at removes whole
    rw [nothing, whole] at removes
    by_cases start : beforeQuery uri = []
    · rw [removeQueryParam_start start] at removes
      have parts := (parts_of uri).whole
      rw [start, none, List.nil_append, List.nil_append] at parts
      exact some (parts.symm.trans removes.symm)
    · have longer := length_removeQueryParam start none some paramName
      rw [removes] at longer
      omega
  · intro some start
    rw [removeQueryParam_start start, withParams, start] at removes
    obtain none | ⟨query, present⟩ := queryPart_cases uri
    · exact some none
    · rw [present] at removes
      cases removes

theorem queryEditing_inexact :
    removeQueryParam "?a=1".toList "b".toList = [] ∧
    getQueryParam "live.mpd#a=1".toList "a".toList = "1".toList ∧
    removeQueryParam "live.mpd#a=1".toList "b".toList = "live.mpd#a=1#a=1".toList := by
  have pieces : findPieces "live.mpd#a=1".toList =
      ⟨"a=1".toList, "live.mpd#".toList, "#a=1".toList⟩ := by
    decide
  refine ⟨removeQueryParam_start (by decide) _, ?_, ?_⟩
  · rw [getQueryParam, pieces, getQueryParamFrom_eq]
    decide
  · rw [removeQueryParam, pieces, removeQueryParamFrom_eq]
    decide

end NDash.Util.UriUtil
