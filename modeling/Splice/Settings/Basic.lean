import Splice.Binary64.Basic
import Splice.Font
import Splice.Path

/-! # Settings

All tunables of one process. Each setting has a name, an environment variable and a kind of content;
any of them may be set to nothing.
-/

namespace Splice

inductive SettingKind where
  | text
  | number
  | whole
  | path
  deriving DecidableEq, Repr

/-- What a setting of a kind holds. -/
abbrev SettingKind.Content : SettingKind → Type
  | .text => String
  | .number => Binary64
  | .whole => Int
  | .path => Path

inductive Setting where
  | engine
  | engineTimeout
  | temporary
  | pollInterval
  | database
  | storage
  | publicBase
  | preset
  | quality
  | bitrate
  | regularFont
  | boldFont
  | downloadTimeout
  deriving DecidableEq, Repr

namespace Setting

/-- All settings, in the order in which the environment is read. -/
def all : List Setting :=
  [.engine, .engineTimeout, .temporary, .pollInterval, .database, .storage, .publicBase, .preset,
    .quality, .bitrate, .regularFont, .boldFont, .downloadTimeout]

def name : Setting → String
  | .engine => "ffmpeg_exe"
  | .engineTimeout => "engine_timeout"
  | .temporary => "tmp_dir"
  | .pollInterval => "poll_interval"
  | .database => "db_path"
  | .storage => "storage_dir"
  | .publicBase => "public_base_url"
  | .preset => "video_preset"
  | .quality => "video_crf"
  | .bitrate => "audio_bitrate"
  | .regularFont => "font_regular"
  | .boldFont => "font_bold"
  | .downloadTimeout => "download_timeout"

def environmentName : Setting → String
  | .engine => "HOOKCUT_FFMPEG"
  | .engineTimeout => "HOOKCUT_ENGINE_TIMEOUT"
  | .temporary => "HOOKCUT_TMP_DIR"
  | .pollInterval => "HOOKCUT_POLL_INTERVAL"
  | .database => "HOOKCUT_DB_PATH"
  | .storage => "HOOKCUT_STORAGE_DIR"
  | .publicBase => "HOOKCUT_PUBLIC_BASE_URL"
  | .preset => "HOOKCUT_VIDEO_PRESET"
  | .quality => "HOOKCUT_VIDEO_CRF"
  | .bitrate => "HOOKCUT_AUDIO_BITRATE"
  | .regularFont => "HOOKCUT_FONT"
  | .boldFont => "HOOKCUT_FONT_BOLD"
  | .downloadTimeout => "HOOKCUT_DOWNLOAD_TIMEOUT"

abbrev kind : Setting → SettingKind
  | .engineTimeout => .number
  | .pollInterval => .number
  | .downloadTimeout => .number
  | .quality => .whole
  | .temporary => .path
  | .database => .path
  | .storage => .path
  | .engine => .text
  | .publicBase => .text
  | .preset => .text
  | .bitrate => .text
  | .regularFont => .text
  | .boldFont => .text

def ofName? (s : String) : Option Setting := all.find? (·.name == s)

end Setting

/-- What a setting is given: a content of its kind, or nothing. -/
structure Assignment where
  setting : Setting
  content : Option setting.kind.Content

/-- A content for every setting. -/
structure Settings where
  get : (s : Setting) → Option s.kind.Content

/-- What is installed where the settings are read. -/
structure Installed where
  systemEngine : Option String
  bundledEngine : String
  hasFont : String → Bool

namespace Settings

def assign (s : Settings) (a : Assignment) : Settings :=
  ⟨fun t => if h : a.setting = t then h ▸ a.content else s.get t⟩

/-- The settings with several given anew; later ones win. -/
def assignAll (s : Settings) (assignments : List Assignment) : Settings := assignments.foldl assign s

/-- The settings where nothing else is said. The engine of the system comes first, because the bundled
one cannot draw text. -/
def default (installed : Installed) : Settings where
  get
    | .engine => some
      (match installed.systemEngine.filter (!·.isEmpty) with
        | some path => path
        | none => installed.bundledEngine)
    | .engineTimeout => some 300
    | .temporary => some (Path.ofText "/tmp/hookcut")
    | .pollInterval => some 5
    | .database => some (Path.ofText "hookcut.sqlite3")
    | .storage => some (Path.ofText "storage")
    | .publicBase => none
    | .preset => some "medium"
    | .quality => some 23
    | .bitrate => some "128k"
    | .regularFont => Font.find? installed.hasFont false
    | .boldFont => Font.find? installed.hasFont true
    | .downloadTimeout => some 60

end Settings
end Splice
