import BucketTree.Proofs.Contract.World
import BucketTree.Proofs.Move.Steps
import BucketTree.Proofs.Store.Paging

/-!
# Tidy buckets

A plain key admits every content, and the marker of a plain key only the empty content
(`Key.Admits`). A bucket is tidy when every object is admitted at its key. `Contract.tidy` permits
the uploads and copies that keep a bucket tidy, and everything that a tree does is permitted
(`Contract.tidy_permitsRename` and its neighbours). The answers of a tidy bucket are trusted: a
marker is empty, and the keys of a page are well formed.
-/

set_option autoImplicit false

namespace BucketTree

namespace Key

/-- The contents admitted at a key: any content at a plain key, and the empty one at the marker of a
plain key. -/
inductive Admits (suffix : String) : Key → Bytes → Prop
  | file {key : Key} (h : IsPlain suffix key) (content : Bytes) : Admits suffix key content
  | marker {dir : Key} (h : IsPlain suffix dir) : Admits suffix (dir ++ suffix) []

/-- Every content admitted at `source` is admitted at `destination`. -/
def MayCopy (suffix : String) (source destination : Key) : Prop :=
  ∀ content, Admits suffix source content → Admits suffix destination content

variable {suffix : String} {key dir : Key} {content : Bytes}

theorem Admits.isWellFormed (h : Admits suffix key content) : IsWellFormed suffix key := by
  cases h with
  | file h => exact .plain h
  | marker h => exact .marker h

/-- A marker admits only the empty content, and only when its directory is a plain key. -/
theorem Admits.of_marker (h : Admits suffix (dir ++ suffix) content)
    (hsuffix : separator ∉ suffix.toList) : IsPlain suffix dir ∧ content = [] := by
  have hdir := h.isWellFormed.of_marker hsuffix
  generalize hkey : dir ++ suffix = key at h
  cases h with
  | file h =>
      rw [← hkey] at h
      exact absurd h (not_isPlain_append_suffix dir hsuffix)
  | marker h => exact ⟨hdir, rfl⟩

theorem mayCopy_plain {destination : Key} (h : IsPlain suffix destination) (source : Key) :
    MayCopy suffix source destination :=
  fun content _ => .file h content

theorem mayCopy_marker {source destination : Key} (h : IsPlain suffix destination)
    (hsuffix : separator ∉ suffix.toList) :
    MayCopy suffix (source ++ suffix) (destination ++ suffix) := by
  intro content hcontent
  rw [(hcontent.of_marker hsuffix).2]
  exact .marker h

/-- A content admitted below one directory is admitted at the same place below another. -/
theorem mayCopy_below {destination : Key} (h : IsPlain suffix destination)
    (hsuffix : separator ∉ suffix.toList) (source : Key) (rest : String) :
    MayCopy suffix (source ++ "/" ++ rest) (destination ++ "/" ++ rest) := by
  intro content hcontent
  generalize hkey : source ++ "/" ++ rest = key at hcontent
  -- a plain source has a plain rest; the marker of a source is that of something below it
  cases hcontent with
  | file hkey' =>
      rw [← hkey, isPlain_append] at hkey'
      exact .file (isPlain_append.2 ⟨h, hkey'.2⟩) content
  | marker hdir =>
      obtain ⟨tail, rfl, rfl⟩ := below_eq_marker hsuffix hkey
      rw [isPlain_append] at hdir
      rw [← String.append_assoc]
      exact .marker (isPlain_append.2 ⟨h, hdir.2⟩)

end Key

/-- Every object is admitted at its key. -/
def Contents.IsTidy (suffix : String) (contents : Contents) : Prop :=
  ∀ key content, contents key = some content → Key.Admits suffix key content

namespace Contents.IsTidy

variable {suffix : String} {contents : Contents} {key : Key} {content : Bytes}

theorem store (h : contents.IsTidy suffix) (hcontent : Key.Admits suffix key content) :
    IsTidy suffix (Function.update contents key (some content)) := by
  intro other stored hstored
  rw [Function.update_apply] at hstored
  split at hstored
  next heq =>
    cases hstored
    rwa [heq]
  next => exact h other stored hstored

theorem erase (h : contents.IsTidy suffix) (key : Key) :
    IsTidy suffix (Function.update contents key none) := by
  intro other stored hstored
  rw [Function.update_apply] at hstored
  split at hstored
  · cases hstored
  · exact h other stored hstored

end Contents.IsTidy

/-! ## The contract -/

namespace Contract

/-- The requests that keep a bucket tidy. -/
def tidyPermits (suffix : String) : Request → Prop
  | .put key upload => ∀ content, upload.received = .ok content → Key.Admits suffix key content
  | .copy source destination => Key.MayCopy suffix source destination
  | _ => True

/-- The keys of the page are well formed and have the requested prefix. -/
def TidyPage (suffix under : String) (page : Page) : Prop :=
  ∀ keys, page.keys = some keys →
    ∀ key ∈ keys, Key.IsWellFormed suffix key ∧ ∃ rest, key = under ++ rest

/-- The answers of a tidy bucket. -/
def tidyTrusts (suffix : String) : (request : Request) → request.Answer → Prop
  | .get key, body => Key.Admits suffix key body.bytes
  | .list request, page => ∀ p, page = some p → TidyPage suffix (request.under.getD "") p
  | _, _ => True

/-- The contract with a store whose bucket is to be kept tidy. -/
def tidy (suffix : String) : Contract := ⟨tidyPermits suffix, tidyTrusts suffix⟩

end Contract

namespace Bucket

variable {suffix : String} {b b' : Bucket}

/-- Every page of a tidy bucket is tidy. -/
theorem tidyPage_page (hb : b.contents.IsTidy suffix) (request : PageRequest) (size : Nat) :
    Contract.TidyPage suffix (request.under.getD "") (b.page request size) := by
  intro keys hkeys key hkey
  obtain ⟨hpresent, hrest⟩ := mem_page_keys hkeys hkey
  obtain ⟨content, hcontent⟩ := Option.ne_none_iff_exists'.1 hpresent
  exact ⟨(hb key content hcontent).isWellFormed, hrest⟩

/-- A permitted request keeps the bucket tidy, and its answer is trusted. -/
theorem Answers.tidy {fails : Request → Fault → Prop} {request : Request}
    {outcome : Except Fault request.Answer} (h : Answers fails request b outcome b')
    (hpermits : (Contract.tidy suffix).permits request) (hb : b.contents.IsTidy suffix) :
    b'.contents.IsTidy suffix ∧
      ∀ answer, outcome = .ok answer → (Contract.tidy suffix).trusts request answer := by
  cases h with
  | failed hfault => exact ⟨hb, nofun⟩
  | absent hneeds hkey => exact ⟨hb, nofun⟩
  | head hkey => exact ⟨hb, fun _ _ => trivial⟩
  | get hkey =>
      refine ⟨hb, ?_⟩
      rintro _ ⟨⟩
      exact hb _ _ (contents_of_find? hkey)
  | put hcontent hstored =>
      rw [hstored]
      exact ⟨hb.store (hpermits _ hcontent), fun _ _ => trivial⟩
  | delete hkey herased =>
      rw [herased]
      exact ⟨hb.erase _, fun _ _ => trivial⟩
  | copy hkey hstored =>
      -- what is copied may lie at the source, the bucket being tidy
      rw [hstored]
      exact ⟨hb.store (hpermits _ (hb _ _ (contents_of_find? hkey))), fun _ _ => trivial⟩
  | list hsize =>
      refine ⟨hb, ?_⟩
      rintro _ ⟨⟩ _ ⟨⟩
      exact tidyPage_page hb _ _
  | openRange hkey => exact ⟨hb, fun _ _ => trivial⟩

end Bucket

namespace Contract

variable {suffix : String} {source destination key child : Key}

theorem tidy_permitsReading (suffix : String) : (tidy suffix).PermitsReading := by
  intro request hreading
  cases request with
  | put key upload => cases hreading
  | copy source destination => cases hreading
  | _ => trivial

theorem tidy_protects (suffix : String) : (tidy suffix).Protects (Contents.IsTidy suffix) where
  reading := tidy_permitsReading suffix
  streams _ _ _ := trivial
  answers := Bucket.Answers.tidy

theorem tidy_permitsUploads (h : Key.IsPlain suffix key) : (tidy suffix).PermitsUploads key :=
  fun _ content _ => .file h content

theorem tidy_permitsFiles (suffix : String) : (tidy suffix).PermitsFiles suffix where
  reading := tidy_permitsReading suffix
  uploads _ h := tidy_permitsUploads h
  markers key h content hcontent := by
    rw [← Move.received_ofBody hcontent]
    exact .marker h

/-- Removals are permitted, as they keep a bucket tidy. -/
theorem tidy_permitsRemoval (suffix : String) (key : Key) :
    (tidy suffix).PermitsRemoval suffix key :=
  ⟨trivial, fun _ _ => trivial, trivial⟩

/-- A move is permitted when `destination` admits what `source` admits. -/
theorem tidy_permitsMove (hcopy : Key.MayCopy suffix source destination) :
    (tidy suffix).PermitsMove source destination where
  copy := hcopy
  put body hbody content hcontent := by
    rw [← Move.received_ofBody hcontent]
    exact hcopy _ hbody
  delete := trivial

theorem exists_of_tidy_shows {under : String} (h : (tidy suffix).Shows under child) :
    ∃ rest, child = under ++ rest := by
  obtain ⟨request, page, keys, rfl, hpage, hkeys, hchild⟩ := h
  exact (hpage page rfl keys hkeys child hchild).2

/-- A rename between plain keys is permitted, with everything below them. -/
theorem tidy_permitsRename (hsuffix : Key.separator ∉ suffix.toList)
    (hsource : Key.IsPlain suffix source) (hdestination : Key.IsPlain suffix destination) :
    (tidy suffix).PermitsRename suffix source destination where
  file := tidy_permitsMove (Key.mayCopy_plain hdestination source)
  below child hchild := by
    obtain ⟨rest, rfl⟩ := exists_of_tidy_shows hchild
    rw [Key.directoryPrefix_eq hsource.ne_root,
      Move.newKey_below hsource.ne_root hdestination.ne_root]
    exact tidy_permitsMove (Key.mayCopy_below hdestination hsuffix source rest)
  marker := tidy_permitsMove (Key.mayCopy_marker hdestination hsuffix)

end Contract

namespace Rule

/-- The rule makes up neither the content of an object nor a page. -/
def isHonest (r : Rule) : Bool :=
  match r.answer with
  | some (.content _) => false
  | some (.page _) => false
  | _ => true

/-- An honest rule respects the contract of a tidy bucket, whatever it removes. -/
theorem respects_of_isHonest {r : Rule} (h : r.isHonest = true) (suffix : String) :
    r.Respects (.tidy suffix) (Contents.IsTidy suffix) where
  vanish key _ _ hcontents := hcontents.erase key
  answer request answer hanswer := by
    unfold isHonest at h
    obtain ⟨scripted, hscripted, hto⟩ := Option.bind_eq_some_iff.1 hanswer
    rw [hscripted] at h
    -- only a read object and a page are relied on for anything
    cases request with
    | get key =>
        cases scripted with
        | content content => cases h
        | _ => cases hto
    | list request =>
        cases scripted with
        | page page => cases h
        | _ => cases hto
    | _ => trivial

end Rule

end BucketTree
