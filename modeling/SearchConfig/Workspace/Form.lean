import SearchConfig.Model.Config

/-!
# Fields of live objects

A live object holds its fields as members, by their inner names, and nothing keeps a member to the
type of its field. The form of a field says how a member that has that type is written.
-/

namespace SearchConfig

/-- How the value of a field is written. -/
inductive Form where
  /-- As whatever it is. -/
  | any
  | integer
  /-- A secret, of which nothing is written. -/
  | masked
  | record (kind : Kind)
  /-- A map of names to records. -/
  | map (kind : Kind)
  deriving DecidableEq

namespace Kind

/-- The fields of a record, in their order. -/
def fields : Kind → List (FieldName × Form)
  | config => [
    (ConfigOf.dbPathField, .any),
    (ConfigOf.titleField, .any),
    (ConfigOf.reposField, .map repository),
    (ConfigOf.maxConcurrentIndexersField, .integer),
    (ConfigOf.healthCheckUriField, .any)]
  | repository => [
    (RepositoryOf.urlField, .any),
    (RepositoryOf.msBetweenPollField, .integer),
    (RepositoryOf.vcsField, .any),
    (RepositoryOf.vcsConfigField, .masked),
    (RepositoryOf.urlPatternField, .record pattern),
    (RepositoryOf.excludeDotFilesField, .any),
    (RepositoryOf.enablePollUpdatesField, .any),
    (RepositoryOf.enablePushUpdatesField, .any)]
  | pattern => [(UrlPattern.baseUrlField, .any), (UrlPattern.anchorField, .any)]
  | _ => []

/-- The field that a member is of. -/
def field? (kind : Kind) (member : Text) : Option (FieldName × Form) :=
  kind.fields.find? fun (field, _) => field.inner = member

/-- Is the key of a member the name of a field? -/
def isField (kind : Kind) (key : Value) : Bool :=
  kind.fields.any fun (field, _) => key.isText field.inner

/-- The hidden member of a record with the names of the fields that were given a value. -/
def givenMember : Text := "__pydantic_fields_set__"

/-- The hidden member of a record with what is no field of it. -/
def extraMember : Text := "__pydantic_extra__"

def privateMember : Text := "__pydantic_private__"

/-- The hidden members of records of declared fields, as they are at first. -/
def hiddenMembers : List (Text × Value) := [
  (givenMember, .set []),
  (extraMember, .null),
  (privateMember, .null)]

/-! A record can be given members that stand before what its kind has under the same names. -/

/-- The member that tells which members are private. -/
def privateNamesMember : Text := "__private_attributes__"

/-- The member that tells what a kind was made from. -/
def originsMember : Text := "__pydantic_generic_metadata__"

/-- The member that tells how other members are given values. -/
def settersMember : Text := "__pydantic_setattr_handlers__"

/-- The member that gives a value to a member without a setter. -/
def setterMember : Text := "_setattr_handler"

/-- The member that writes the record. -/
def writerMember : Text := "__pydantic_serializer__"

end Kind

/-- The entries of a map of names. -/
def Value.underNames (entries : List (Text × Value)) : List (Value × Value) :=
  entries.map fun (name, v) => (.text name, v)

/-- The members of a pattern. -/
def UrlPattern.members (p : UrlPattern) : List (Text × Value) := [
  (baseUrlField.inner, .text p.baseUrl),
  (anchorField.inner, .text p.anchor)]

/-- The members of a repository whose secret and pattern are values already. -/
def RepositoryOf.members (r : RepositoryOf Value Value) : List (Text × Value) := [
  (urlField.inner, .text r.url),
  (msBetweenPollField.inner, .int r.msBetweenPoll),
  (vcsField.inner, .text r.vcs),
  (vcsConfigField.inner, r.vcsConfig.getD .null),
  (urlPatternField.inner, r.urlPattern.getD .null),
  (excludeDotFilesField.inner, .bool r.excludeDotFiles),
  (enablePollUpdatesField.inner, r.enablePollUpdates.elim .null .bool),
  (enablePushUpdatesField.inner, r.enablePushUpdates.elim .null .bool)]

/-- The members of a configuration whose repositories are values already. -/
def ConfigOf.members (c : ConfigOf Value) : List (Text × Value) := [
  (dbPathField.inner, .text c.dbPath),
  (titleField.inner, .text c.title),
  (reposField.inner, .dict (Value.underNames c.repos)),
  (maxConcurrentIndexersField.inner, .int c.maxConcurrentIndexers),
  (healthCheckUriField.inner, .text c.healthCheckUri)]

/-- The member of a secret. -/
def Secret.payloadMember : Text := "_payload"

def Secret.members (s : Secret) : List (Text × Value) := [(payloadMember, .bytes s.payload)]

end SearchConfig
