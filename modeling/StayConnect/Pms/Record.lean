import StayConnect.Framing

/-!
# FIAS records

The strict parser of `internal/pmsd/strict_parse.go` and the typed projection of a domain record. A record
body is a byte string; the parser keeps every field in source order, duplicates and empty values included,
so a record with fields can be written back from its parse (`parseStrictRecord_render`).
-/

namespace StayConnect.Pms
open StayConnect.Framing

/-- `RecordType`: the closed set of FIAS records. -/
inductive RecordType where
  | GI
  | GC
  | GO
  | LS
  | LA
  | LE
  | DR
  | DS
  | DE
  | PA
  deriving DecidableEq, Repr

namespace RecordType

/-- The two bytes of the record id. -/
def code : RecordType → Bytes
  | GI => ['G', 'I']
  | GC => ['G', 'C']
  | GO => ['G', 'O']
  | LS => ['L', 'S']
  | LA => ['L', 'A']
  | LE => ['L', 'E']
  | DR => ['D', 'R']
  | DS => ['D', 'S']
  | DE => ['D', 'E']
  | PA => ['P', 'A']

/-- `RecordType(b)` when it is `Valid`. -/
def ofCode (b : Bytes) : Option RecordType :=
  [GI, GC, GO, LS, LA, LE, DR, DS, DE, PA].find? fun r => r.code == b

def isDomain : RecordType → Bool
  | GI | GC | GO => true
  | _ => false

end RecordType

/-- `FieldPair`: one field occurrence as parsed. -/
structure FieldPair where
  code : Bytes
  value : Bytes
  deriving DecidableEq, Repr

structure ParsedRecord where
  recordType : RecordType
  fields : List FieldPair
  deriving DecidableEq, Repr

/-- `ErrRecordMalformed`, and `identityAbsentError` with the absent field code. -/
inductive RecordError where
  | malformed
  | identityAbsent (missing : Bytes)
  deriving DecidableEq, Repr

def hasControlBytes (s : Bytes) : Bool :=
  s.any fun c => c.toNat < 0x20 || c.toNat == 0x7f

/-- `validFieldCode`: two bytes of graphic ASCII. -/
def validFieldCode (code : Bytes) : Bool :=
  code.length == 2 && code.all fun c => 0x21 ≤ c.toNat && c.toNat ≤ 0x7e

/-- One segment of the tail. -/
def parseField (s : Bytes) : Except RecordError FieldPair :=
  if s.length < 2 then .error .malformed
  else if !validFieldCode (s.take 2) || hasControlBytes (s.drop 2) then .error .malformed
  else .ok ⟨s.take 2, s.drop 2⟩

def parseStrictRecord (body : Bytes) : Except RecordError ParsedRecord :=
  if body.length < 2 then .error .malformed
  else
    match RecordType.ofCode (body.take 2) with
    | none => .error .malformed
    | some rt =>
      match body.drop 2 with
      | [] => .ok ⟨rt, []⟩
      | c :: rest =>
        if c ≠ '|' then .error .malformed
        else if rest = [] then .ok ⟨rt, []⟩ -- "XX|": a control frame such as "LA|"
        else if rest.getLast? ≠ some '|' then .error .malformed
        else if rest.dropLast = [] then .error .malformed
        else do
          let fields ← (rest.dropLast.splitOn '|').mapM parseField
          return ⟨rt, fields⟩

/-- The body of a record with fields. -/
def ParsedRecord.render (pr : ParsedRecord) : Bytes :=
  pr.recordType.code ++ '|' :: (['|'].intercalate (pr.fields.map fun f => f.code ++ f.value) ++ ['|'])

lemma parseField_bytes {s f} (h : parseField s = .ok f) : f.code ++ f.value = s := by
  unfold parseField at h
  split at h
  · cases h
  split at h
  · cases h
  · cases h
    exact List.take_append_drop 2 s

lemma mapM_parseField_bytes {segs : List Bytes} {fields : List FieldPair}
    (h : segs.mapM parseField = .ok fields) : (fields.map fun f => f.code ++ f.value) = segs := by
  induction segs generalizing fields with
  | nil =>
    cases h
    rfl
  | cons s segs ih =>
    rw [List.mapM_cons] at h
    cases hf : parseField s with
    | error e => rw [hf] at h; cases h
    | ok f =>
      cases hs : segs.mapM parseField with
      | error e => rw [hf, hs] at h; cases h
      | ok fs =>
        rw [hf, hs] at h
        cases h
        rw [List.map_cons, parseField_bytes hf, ih hs]

lemma parseStrictRecord_render {body : Bytes} {pr : ParsedRecord}
    (h : parseStrictRecord body = .ok pr) (hf : pr.fields ≠ []) : pr.render = body := by
  unfold parseStrictRecord at h
  split at h
  · cases h
  split at h
  · cases h
  rename_i rt hrt
  have code : rt.code = body.take 2 := by simpa using List.find?_some hrt
  split at h
  · cases h
    exact absurd rfl hf
  rename_i c rest hrest
  split_ifs at h with hc hnil hlast hin
  · cases h
    exact absurd rfl hf
  obtain rfl : c = '|' := not_not.mp hc
  cases hm : (rest.dropLast.splitOn '|').mapM parseField with
  | error e => rw [hm] at h; cases h
  | ok fields =>
    rw [hm] at h
    cases h
    have last : rest.dropLast ++ ['|'] = rest :=
      List.dropLast_append_getLast? '|' (not_not.mp hlast)
    rw [ParsedRecord.render, mapM_parseField_bytes hm, List.intercalate_splitOn, last, code,
      ← hrest, List.take_append_drop]

end StayConnect.Pms
