import Mathlib.Data.List.Basic

/-!
Slash-separated paths: splitting into components and joining them again, and
the functions of `node:path`'s `posix` object that work on such paths.

`normalize` and `join` follow the documented behaviour component by
component: empty and `.` components disappear, `..` cancels the component
before it, and a relative path keeps the `..` components it cannot cancel.
-/

namespace PocketCoder.Foundation.PosixPath

/-- `path.split("/")`. -/
def split (path : String) : List String := (path.toList.splitOn '/').map String.ofList

/-- `parts.join("/")`. -/
def joinParts (parts : List String) : String :=
  String.ofList (['/'].intercalate (parts.map String.toList))

theorem joinParts_split (path : String) : joinParts (split path) = path := by
  have h : ((path.toList.splitOn '/').map String.ofList).map String.toList =
      path.toList.splitOn '/' := by
    rw [List.map_map]
    conv_rhs => rw [← List.map_id (path.toList.splitOn '/')]
    apply List.map_congr_left
    intro part _
    simp
  rw [joinParts, split, h, List.intercalate_splitOn, String.ofList_toList]

theorem split_joinParts {parts : List String} (h : ∀ part ∈ parts, '/' ∉ part.toList)
    (hne : parts ≠ []) : split (joinParts parts) = parts := by
  have hparts : (parts.map String.toList).map String.ofList = parts := by
    rw [List.map_map]
    conv_rhs => rw [← List.map_id parts]
    apply List.map_congr_left
    intro part _
    simp
  rw [split, joinParts, String.toList_ofList,
    List.splitOn_intercalate '/' (by simpa using h) (by simpa using hne), hparts]

/-! ### `node:path` -/

def isAbsolute (path : String) : Bool := path.toList.head? = some '/'

/-- `posix.dirname`: everything before the last slash that has a name after
it, trailing slashes aside. -/
def dirname (path : String) : String :=
  let name := path.toList.reverse.dropWhile (· = '/')
  match (name.dropWhile (· ≠ '/')).tail.reverse with
  | [] => if isAbsolute path then "/" else "."
  | directory => if directory = ['/'] then "//" else String.ofList directory

/-- One component of `normalizeString`, on the components kept so far. -/
def normalizePart (allowAboveRoot : Bool) (kept : List String) (part : String) : List String :=
  if part = "" ∨ part = "." then kept
  else if part = ".." then
    match kept.getLast? with
    | some last => if last = ".." then kept ++ [".."] else kept.dropLast
    | none => if allowAboveRoot then [".."] else []
  else kept ++ [part]

def normalize (path : String) : String :=
  if path = "" then "."
  else
    let trailing := path.toList.getLast? = some '/'
    let kept := (split path).foldl (normalizePart (!isAbsolute path)) []
    let body := joinParts kept ++ (if trailing then "/" else "")
    if kept = [] then
      if isAbsolute path then "/" else if trailing then "./" else "."
    else if isAbsolute path then "/" ++ body else body

/-- `posix.join` of two arguments. -/
def join (a b : String) : String :=
  match [a, b].filter (· ≠ "") with
  | [] => "."
  | args => normalize (joinParts args)

/-! ### Paths of names -/

theorem not_mem_of_mem_splitOn {cs : List Char} :
    ∀ part ∈ cs.splitOn '/', '/' ∉ part := by
  induction cs with
  | nil => simp
  | cons c cs ih =>
      rw [List.splitOn_cons_eq_if_modifyHead]
      split
      · exact List.forall_mem_cons.mpr ⟨by simp, ih⟩
      · rename_i hc
        cases hparts : cs.splitOn '/' with
        | nil => simp
        | cons part parts =>
            rw [hparts] at ih
            obtain ⟨hpart, hrest⟩ := List.forall_mem_cons.mp ih
            refine List.forall_mem_cons.mpr ⟨?_, hrest⟩
            simp only [beq_iff_eq] at hc
            simp only [List.mem_cons, not_or]
            exact ⟨Ne.symm hc, hpart⟩

/-- The components of a path hold no slash. -/
theorem not_mem_of_mem_split {path part : String} (h : part ∈ split path) : '/' ∉ part.toList := by
  obtain ⟨cs, hcs, rfl⟩ := List.mem_map.mp h
  rw [String.toList_ofList]
  exact not_mem_of_mem_splitOn cs hcs

theorem split_ne_nil (path : String) : split path ≠ [] := by
  rw [split, ne_eq, List.map_eq_nil_iff]
  exact List.splitOn_ne_nil _ _

theorem toList_joinParts_append {parts : List String} (h : parts ≠ []) (last : String) :
    (joinParts (parts ++ [last])).toList = (joinParts parts).toList ++ '/' :: last.toList := by
  induction parts with
  | nil => contradiction
  | cons part parts ih =>
      cases parts with
      | nil => simp [joinParts]
      | cons next parts =>
          have ih := ih (by simp)
          simp only [joinParts, List.cons_append, List.map_cons, List.map_append,
            List.intercalate_cons_cons, String.toList_ofList, List.append_assoc] at ih ⊢
          rw [ih]

/-- The directory of a path of names is the path of all names but the last. -/
theorem dirname_joinParts {parts : List String} {last : String}
    (hslash : ∀ part ∈ parts ++ [last], '/' ∉ part.toList)
    (hne : ∀ part ∈ parts ++ [last], part ≠ "") :
    dirname (joinParts (parts ++ [last])) = if parts = [] then "." else joinParts parts := by
  have hlastSlash : ∀ c ∈ last.toList.reverse, decide (c ≠ '/') = true := by
    intro c hc
    have := hslash last (by simp)
    simp only [decide_eq_true_eq]
    rintro rfl
    exact this (List.mem_reverse.mp hc)
  -- The last character is no slash, so nothing is trailing.
  obtain ⟨c, cs, hlast⟩ : ∃ c cs, last.toList.reverse = c :: cs := by
    cases h : last.toList.reverse with
    | nil =>
        have : last = "" := by simpa using h
        exact absurd this (hne last (by simp))
    | cons c cs => exact ⟨c, cs, rfl⟩
  have hc : ¬c = '/' := by
    have := hlastSlash c (by simp [hlast])
    simpa using this
  unfold dirname
  by_cases hparts : parts = []
  · subst hparts
    have hchars : (joinParts ([] ++ [last])).toList = last.toList := by simp [joinParts]
    have hroot : isAbsolute (joinParts ([] ++ [last])) = false := by
      rw [isAbsolute, hchars, decide_eq_false_iff_not]
      intro hhead
      exact hslash last (by simp) (List.mem_of_mem_head? hhead)
    have hnone : (last.toList.reverse ++ []).dropWhile (· ≠ '/') = [] :=
      List.dropWhile_append_of_pos hlastSlash
    rw [List.append_nil] at hnone
    rw [hchars, hlast, List.dropWhile_cons_of_neg (by simpa using hc), ← hlast]
    dsimp only
    rw [hnone, hroot]
    rfl
  · have hchars := toList_joinParts_append hparts last
    -- the search runs backwards over the last name and stops at the slash before it
    have hname : (joinParts (parts ++ [last])).toList.reverse.dropWhile (· = '/') =
        last.toList.reverse ++ '/' :: (joinParts parts).toList.reverse := by
      rw [hchars, List.reverse_append, List.reverse_cons, List.append_assoc, List.singleton_append,
        hlast, List.cons_append, List.dropWhile_cons_of_neg (by simpa using hc)]
    have hdirectory : ((last.toList.reverse ++ '/' :: (joinParts parts).toList.reverse).dropWhile
        (· ≠ '/')).tail.reverse = (joinParts parts).toList := by
      rw [List.dropWhile_append_of_pos hlastSlash, List.dropWhile_cons_of_neg (by simp),
        List.tail_cons, List.reverse_reverse]
    obtain ⟨first, rest, rfl⟩ := List.exists_cons_of_ne_nil hparts
    obtain ⟨d, ds, hfirst⟩ : ∃ d ds, first.toList = d :: ds := by
      apply List.exists_cons_of_ne_nil
      intro hnil
      exact hne first (by simp) (by simpa using hnil)
    have hd : d ≠ '/' := by
      rintro rfl
      exact hslash first (by simp) (by simp [hfirst])
    obtain ⟨es, hes⟩ : ∃ es, (joinParts (first :: rest)).toList = d :: es := by
      cases rest with
      | nil => exact ⟨ds, by simp [joinParts, hfirst]⟩
      | cons next rest => exact ⟨_, by simp [joinParts, hfirst, List.intercalate_cons_cons]; rfl⟩
    rw [hname]
    dsimp only
    rw [hdirectory, hes, if_neg hparts]
    simp only [List.cons.injEq, hd, false_and, if_false]
    rw [← hes, String.ofList_toList]

end PocketCoder.Foundation.PosixPath
