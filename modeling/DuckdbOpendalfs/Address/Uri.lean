/- DuckdbOpendalfs/Address/Uri
   digest: URI parsing, the backend-specific mapping and the prefix search of TryParse. -/

import DuckdbOpendalfs.Address.Prefixes
import DuckdbOpendalfs.Text.PercentEncoding
import Mathlib.Data.Finmap

set_option autoImplicit false
set_option relaxedAutoImplicit false

namespace DuckdbOpendalfs.Address.Uri

open Text Text.ByteString
open Prefixes

abbrev StringMap := AList (fun _ : Bytes => Bytes)

abbrev StringMapValue := Finmap (fun _ : Bytes => Bytes)

/-- DuckDB's string utilities, of which URI parsing uses the decoder. -/
class StringUtil where
  urlDecode : Bytes → Bytes

@[reducible] def percentDecoding : StringUtil := ⟨PercentEncoding.decode⟩

/-- The segment up to the first slash, and the path that is left. -/
def takeSegment (path_p : Bytes) : Bytes × Bytes :=
  match find slash path_p with
  | none => (path_p, [])
  | some i => (substr path_p 0 i, path_p.drop (i + 1))

def isBucketService (scheme_p : Bytes) : Bool :=
  scheme_p == bytes "s3" || scheme_p == bytes "gcs" || scheme_p == bytes "b2" ||
  scheme_p == bytes "cos" || scheme_p == bytes "obs" || scheme_p == bytes "oss" ||
  scheme_p == bytes "tos" || scheme_p == bytes "upyun"

def isRootOnlyService (scheme_p : Bytes) : Bool :=
  scheme_p == bytes "dropbox" || scheme_p == bytes "gdrive" || scheme_p == bytes "vercel-blob" ||
  scheme_p == bytes "yandex-disk"

structure OpenDALUri where
  authority : Bytes := []
  root : Bytes := []
  query : Bytes := []
  trailingSlash : Bool := false
  deriving DecidableEq, Repr

/-- Cut a URI behind its prefix: the authority up to the first slash, then the query, then the
decoding of what is left. The trailing slash is looked for in the whole URI. -/
def OpenDALUri.parse [StringUtil] (uri_p : Bytes) (prefix_size_p : Nat) : OpenDALUri :=
  let slashAt := findFrom slash uri_p prefix_size_p
  let authoritySize :=
    match slashAt with
    | none => uri_p.length - prefix_size_p
    | some i => i - prefix_size_p
  let root :=
    match slashAt with
    | none => []
    | some i => uri_p.drop (i + 1)
  let query := find question root
  { authority := substr uri_p prefix_size_p authoritySize
    root := StringUtil.urlDecode (match query with | none => root | some i => root.take i)
    query := match query with | none => [] | some i => root.drop (i + 1)
    trailingSlash := uri_p.getLast? == some slash }

def OpenDALUri.isGithubRaw (uri : OpenDALUri) : Bool :=
  (uri.authority == bytes "github.com" || (bytes "github.com:").isPrefixOf uri.authority) &&
    uri.query == bytes "raw=true"

/-- The rewriting of the first `/blob/` of a path. -/
def rewriteBlob (path_p : Bytes) : Bytes :=
  match findSubstring (bytes "/blob/") path_p with
  | none => path_p
  | some blob => replaceAt path_p blob 6 (bytes "/raw/")

/-- The backend-specific mapping: configuration entries taken from the URI, and the object path
relative to the root of the operator. The incoming path is replaced in every branch. -/
def OpenDALUri.apply (uri : OpenDALUri) (scheme_p uri_prefix_p : Bytes) (config_p : StringMap)
    (_path_p : Bytes) : StringMap × Bytes :=
  let path_p := uri.root
  let authority := uri.authority
  if scheme_p == bytes "http" then
    (config_p.insert (bytes "endpoint") (uri_prefix_p ++ authority),
      if uri.isGithubRaw then rewriteBlob path_p else path_p)
  else if isBucketService scheme_p then
    (config_p.insert (bytes "bucket") authority, path_p)
  else if scheme_p == bytes "azblob" then
    (config_p.insert (bytes "container") authority, path_p)
  else if scheme_p == bytes "aliyun-drive" then
    (config_p.insert (bytes "drive_type") authority, path_p)
  else if scheme_p == bytes "dbfs" || scheme_p == bytes "pcloud" || scheme_p == bytes "webdav" then
    (config_p.insert (bytes "endpoint") (bytes "https://" ++ authority), path_p)
  else if scheme_p == bytes "ftp" then
    (config_p.insert (bytes "endpoint") (bytes "ftp://" ++ authority), path_p)
  else if scheme_p == bytes "ipfs" then
    (config_p.insert (bytes "endpoint") (bytes "http://" ++ authority), path_p)
  else if scheme_p == bytes "sftp" then
    (config_p.insert (bytes "endpoint") authority, path_p)
  else if scheme_p == bytes "azdls" || scheme_p == bytes "azfile" then
    let (segment, path_p) := takeSegment path_p
    (((config_p.insert (bytes "endpoint") (bytes "https://" ++ authority)).insert
        (bytes "account_name") (beforeFirst dot authority)).insert
        (if scheme_p == bytes "azdls" then bytes "filesystem" else bytes "share_name") segment,
      path_p)
  else if scheme_p == bytes "github" then
    let (segment, path_p) := takeSegment path_p
    ((config_p.insert (bytes "owner") authority).insert (bytes "repo") segment, path_p)
  else if scheme_p == bytes "koofr" then
    let (segment, path_p) := takeSegment path_p
    ((config_p.insert (bytes "endpoint") (bytes "https://" ++ authority)).insert
        (bytes "email") segment, path_p)
  else if scheme_p == bytes "lakefs" then
    let (repository, path_p) := takeSegment path_p
    let (branch, path_p) := takeSegment path_p
    (((config_p.insert (bytes "endpoint") (bytes "https://" ++ authority)).insert
        (bytes "repository") repository).insert (bytes "branch") branch, path_p)
  else if scheme_p == bytes "seafile" then
    let (segment, path_p) := takeSegment path_p
    ((config_p.insert (bytes "endpoint") (bytes "https://" ++ authority)).insert
        (bytes "repo_name") segment, path_p)
  else if scheme_p == bytes "swift" then
    let (segment, path_p) := takeSegment path_p
    ((config_p.insert (bytes "endpoint") (bytes "https://" ++ authority)).insert
        (bytes "container") segment, path_p)
  else if scheme_p == bytes "onedrive" then
    (config_p, (takeSegment path_p).2)
  else if scheme_p == bytes "hf" || scheme_p == bytes "huggingface" then
    let config_p := config_p.insert (bytes "repo_type")
      (if authority == bytes "datasets" then bytes "dataset"
       else if authority == bytes "spaces" then bytes "space" else bytes "model")
    let (owner, path_p) := takeSegment path_p
    let (repo, path_p) := takeSegment path_p
    match find atSign repo with
    | none => (config_p.insert (bytes "repo_id") (owner ++ bytes "/" ++ repo), path_p)
    | some revision =>
      ((config_p.insert (bytes "revision") (repo.drop (revision + 1))).insert
        (bytes "repo_id") (owner ++ bytes "/" ++ repo.take revision), path_p)
  else if isRootOnlyService scheme_p then
    (config_p, path_p)
  else
    -- The path-only backends keep the authority as the first part of the path.
    let path_p := authority
    let path_p := if uri.root.isEmpty then path_p else path_p ++ (bytes "/" ++ uri.root)
    let path_p :=
      if uri.trailingSlash && !path_p.isEmpty && path_p.getLast? != some slash then
        path_p ++ [slash]
      else path_p
    (config_p, path_p)

structure OpenDALPath where
  scheme : Bytes := []
  secretType : OpenDALSecretType := .none
  path : Bytes := []
  uriConfig : StringMap := ∅
  deriving DecidableEq

/-- What TryParse writes into its out-parameter when `entry` is the matching prefix. -/
def OpenDALPath.assign [StringUtil] (entry : OpenDALPrefix) (path_p : Bytes)
    (result_p : OpenDALPath) : OpenDALPath :=
  let uri := OpenDALUri.parse path_p entry.text.length
  let (uriConfig, path) := uri.apply entry.scheme entry.text ∅ result_p.path
  { scheme := entry.scheme, secretType := entry.secretType, path := path, uriConfig := uriConfig }

/-- The flag, and the out-parameter after the call. -/
def OpenDALPath.tryParse [StringUtil] (path_p : Bytes) (result_p : OpenDALPath) :
    Bool × OpenDALPath :=
  match openDALPrefixes.find? fun entry => substr path_p 0 entry.text.length == entry.text with
  | none => (false, result_p)
  | some entry => (true, assign entry path_p result_p)

end DuckdbOpendalfs.Address.Uri
