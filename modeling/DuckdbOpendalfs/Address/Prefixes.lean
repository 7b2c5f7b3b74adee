/- DuckdbOpendalfs/Address/Prefixes
   digest: The registered URI prefixes with their schemes and secret types. -/

import DuckdbOpendalfs.Text.ByteString

set_option autoImplicit false
set_option relaxedAutoImplicit false

namespace DuckdbOpendalfs.Address.Prefixes

open Text.ByteString

inductive OpenDALSecretType
  | none | http | aliyunDrive | azblob | azdls | azfile | b2 | cos | dbfs | dropbox | ftp | gcs
  | gdrive | github | hf | huggingface | ipfs | koofr | lakefs | obs | onedrive | oss | pcloud | s3
  | seafile | sftp | swift | tos | upyun | vercelArtifacts | vercelBlob | webdav | yandexDisk
  | count
  deriving DecidableEq, Repr

def openDALSecretTypeNames : List Bytes :=
  [bytes "", bytes "http", bytes "opendal_aliyun_drive", bytes "opendal_azblob",
   bytes "opendal_azdls", bytes "opendal_azfile", bytes "opendal_b2", bytes "opendal_cos",
   bytes "opendal_dbfs", bytes "opendal_dropbox", bytes "opendal_ftp", bytes "opendal_gcs",
   bytes "opendal_gdrive", bytes "opendal_github", bytes "opendal_hf", bytes "opendal_huggingface",
   bytes "opendal_ipfs", bytes "opendal_koofr", bytes "opendal_lakefs", bytes "opendal_obs",
   bytes "opendal_onedrive", bytes "opendal_oss", bytes "opendal_pcloud", bytes "opendal_s3",
   bytes "opendal_seafile", bytes "opendal_sftp", bytes "opendal_swift", bytes "opendal_tos",
   bytes "opendal_upyun", bytes "opendal_vercel_artifacts", bytes "opendal_vercel_blob",
   bytes "opendal_webdav", bytes "opendal_yandex_disk"]

def openDALSecretTypeName (type_p : OpenDALSecretType) : Bytes :=
  if OpenDALSecretType.count.ctorIdx ≤ type_p.ctorIdx then bytes ""
  else openDALSecretTypeNames.getD type_p.ctorIdx (bytes "")

structure OpenDALPrefix where
  text : Bytes
  scheme : Bytes
  secretType : OpenDALSecretType
  deriving DecidableEq, Repr

/-- The prefix table, in the order in which it is searched. -/
def openDALPrefixes : List OpenDALPrefix :=
  [⟨bytes "memory://", bytes "memory", .none⟩,
   ⟨bytes "s3://", bytes "s3", .s3⟩,
   ⟨bytes "s3a://", bytes "s3", .s3⟩,
   ⟨bytes "s3n://", bytes "s3", .s3⟩,
   ⟨bytes "gs://", bytes "gcs", .gcs⟩,
   ⟨bytes "gcs://", bytes "gcs", .gcs⟩,
   ⟨bytes "az://", bytes "azblob", .azblob⟩,
   ⟨bytes "azblob://", bytes "azblob", .azblob⟩,
   ⟨bytes "abfs://", bytes "azdls", .azdls⟩,
   ⟨bytes "abfss://", bytes "azdls", .azdls⟩,
   ⟨bytes "azdls://", bytes "azdls", .azdls⟩,
   ⟨bytes "azfile://", bytes "azfile", .azfile⟩,
   ⟨bytes "http://", bytes "http", .http⟩,
   ⟨bytes "https://", bytes "http", .http⟩,
   ⟨bytes "aliyun-drive://", bytes "aliyun-drive", .aliyunDrive⟩,
   ⟨bytes "b2://", bytes "b2", .b2⟩,
   ⟨bytes "cos://", bytes "cos", .cos⟩,
   ⟨bytes "dbfs://", bytes "dbfs", .dbfs⟩,
   ⟨bytes "dropbox://", bytes "dropbox", .dropbox⟩,
   ⟨bytes "ftp://", bytes "ftp", .ftp⟩,
   ⟨bytes "fs://", bytes "fs", .none⟩,
   ⟨bytes "gdrive://", bytes "gdrive", .gdrive⟩,
   ⟨bytes "github://", bytes "github", .github⟩,
   ⟨bytes "hf://", bytes "hf", .hf⟩,
   ⟨bytes "huggingface://", bytes "huggingface", .huggingface⟩,
   ⟨bytes "ipfs://", bytes "ipfs", .ipfs⟩,
   ⟨bytes "koofr://", bytes "koofr", .koofr⟩,
   ⟨bytes "lakefs://", bytes "lakefs", .lakefs⟩,
   ⟨bytes "obs://", bytes "obs", .obs⟩,
   ⟨bytes "onedrive://", bytes "onedrive", .onedrive⟩,
   ⟨bytes "oss://", bytes "oss", .oss⟩,
   ⟨bytes "pcloud://", bytes "pcloud", .pcloud⟩,
   ⟨bytes "seafile://", bytes "seafile", .seafile⟩,
   ⟨bytes "sftp://", bytes "sftp", .sftp⟩,
   ⟨bytes "swift://", bytes "swift", .swift⟩,
   ⟨bytes "tos://", bytes "tos", .tos⟩,
   ⟨bytes "upyun://", bytes "upyun", .upyun⟩,
   ⟨bytes "vercel-artifacts://", bytes "vercel-artifacts", .vercelArtifacts⟩,
   ⟨bytes "vercel-blob://", bytes "vercel-blob", .vercelBlob⟩,
   ⟨bytes "webdav://", bytes "webdav", .webdav⟩,
   ⟨bytes "yandex-disk://", bytes "yandex-disk", .yandexDisk⟩]

theorem text_prefix_unique : ∀ e ∈ openDALPrefixes, ∀ e' ∈ openDALPrefixes,
    e.text <+: e'.text → e = e' := by
  decide +kernel

theorem entry_unique {e e' : OpenDALPrefix} (he : e ∈ openDALPrefixes)
    (he' : e' ∈ openDALPrefixes) {uri : Bytes} (h : e.text <+: uri) (h' : e'.text <+: uri) :
    e = e' := by
  rcases List.prefix_or_prefix_of_prefix h h' with hp | hp
  · exact text_prefix_unique e he e' he' hp
  · exact (text_prefix_unique e' he' e he hp).symm

end DuckdbOpendalfs.Address.Prefixes
