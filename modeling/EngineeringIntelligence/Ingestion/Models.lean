import EngineeringIntelligence.Framework.Json
import EngineeringIntelligence.Framework.Sorted
import EngineeringIntelligence.Framework.Table
import EngineeringIntelligence.Framework.UtcTime
import Mathlib.Data.List.Lex
import Mathlib.Data.String.Basic

namespace EngineeringIntelligence.Ingestion

open EngineeringIntelligence.Framework

inductive ChangeType where
  | upsert | delete
  deriving DecidableEq, Repr

def ChangeType.value : ChangeType → String
  | upsert => "upsert"
  | delete => "delete"

structure SourceIdentity where
  provider : String
  repository : String
  branch : String
  commitSha : String
  path : String
  deriving DecidableEq, Repr

namespace SourceIdentity

def documentId (s : SourceIdentity) : String :=
  s.provider ++ ":" ++ s.repository ++ ":" ++ s.branch ++ ":" ++ s.path

def citation (s : SourceIdentity) : String :=
  s.provider ++ ":" ++ s.repository ++ "@" ++ s.commitSha ++ ":" ++ s.path

end SourceIdentity

structure ACL where
  groups : List String
  users : List String
  deriving DecidableEq, Repr

structure FileChange where
  source : SourceIdentity
  changeType : ChangeType
  content : Option String
  language : Option String
  owner : Option String
  service : Option String
  acl : ACL

inductive KnowledgeSourceType where
  | workItem | documentation | adr | runbook | incident | deployment | conversation
  deriving DecidableEq, Repr

def KnowledgeSourceType.value : KnowledgeSourceType → String
  | workItem => "work_item"
  | documentation => "documentation"
  | adr => "adr"
  | runbook => "runbook"
  | incident => "incident"
  | deployment => "deployment"
  | conversation => "conversation"

structure KnowledgeIdentity where
  provider : String
  sourceType : KnowledgeSourceType
  sourceId : String
  deriving DecidableEq, Repr

def KnowledgeIdentity.documentId (i : KnowledgeIdentity) : String :=
  "knowledge:" ++ i.provider ++ ":" ++ i.sourceType.value ++ ":" ++ i.sourceId

/-- An `updated_at`: the moment `astimezone(timezone.utc)` makes of it, and whether it names
a timezone. -/
structure SourceTime where
  utc : UtcTime
  aware : Bool

/-- The key of an entry of a string mapping. -/
def entryKey (entry : String × String) : String := entry.1

structure KnowledgeDocument where
  identity : KnowledgeIdentity
  title : String
  body : String
  revision : String
  updatedAt : SourceTime
  sourceUrl : Option String
  owner : Option String
  service : Option String
  acl : ACL
  metadata : Table entryKey

structure KnowledgeChange where
  changeType : ChangeType
  document : KnowledgeDocument

section
variable (sha256 : String → String)

/-- `change_fingerprint`; `sha256` is the hex digest of a text. -/
def changeFingerprint (c : FileChange) : String :=
  "sha256:" ++ sha256 (Json.obj [("provider", .str c.source.provider),
    ("repository", .str c.source.repository), ("branch", .str c.source.branch),
    ("commit_sha", .str c.source.commitSha), ("path", .str c.source.path),
    ("content", .str (c.content.getD "")), ("language", .optStr c.language),
    ("owner", .optStr c.owner), ("service", .optStr c.service),
    ("acl_groups", .arr ((sortedSet c.acl.groups).map .str)),
    ("acl_users", .arr ((sortedSet c.acl.users).map .str))]).dumps

/-- `_knowledge_fingerprint`, with the document's `content_hash` inside. -/
def knowledgeFingerprint (d : KnowledgeDocument) : String :=
  "sha256:" ++ sha256 (Json.obj [("document_id", .str d.identity.documentId), ("title", .str d.title),
    ("revision", .str d.revision), ("content_hash", .str (sha256 d.body)),
    ("updated_at", .str d.updatedAt.utc.isoformat), ("source_url", .optStr d.sourceUrl),
    ("owner", .optStr d.owner), ("service", .optStr d.service),
    ("acl_groups", .arr ((sortedSet d.acl.groups).map .str)),
    ("acl_users", .arr ((sortedSet d.acl.users).map .str)),
    ("metadata", .arr ((sortedBy (fun e => [e.1, e.2]) d.metadata.rows).map fun e =>
      .arr [.str e.1, .str e.2]))]).dumps

end

end EngineeringIntelligence.Ingestion
