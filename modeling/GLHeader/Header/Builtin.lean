import GLHeader.Text.Lines

namespace GLHeader.Header.Builtin

open GLHeader.Text

def notice : List String := [
  " *",
  " * Generated from the Khronos OpenGL XML registry. Do not edit by hand.",
  " *",
  " * Define GLAPI_IMPLEMENTATION in exactly one source file before including",
  " * this header, then call glapiLoadGL() (or glapiLoadGLLoader() with the",
  " * GetProcAddress of your windowing library) once a context is current.",
  " */",
  ""]

/-- The start of the guard against a second inclusion, and the check that no other header of the
API came first. -/
def inclusionGuard : List String := [
  "#ifndef GLAPI_H",
  "# define GLAPI_H",
  "",
  "# if defined (__gl_h_) || defined (__GL_H__) || defined (__glext_h_) || defined (__gl_glext_h_)",
  "#  error \"glapi.h must be included before any other OpenGL header\"",
  "# endif"]

def foreignGuards : List String := [
  "# define __gl_h_",
  "# define __GL_H__",
  "# define __glext_h_",
  "# define __gl_glext_h_",
  ""]

def environment : List String := [
  "",
  "# include <stddef.h>",
  "# include <stdint.h>",
  "# include <KHR/khrplatform.h>",
  "",
  "# if defined (_WIN32) && !defined (APIENTRY) && !defined (__CYGWIN__) && !defined (__SCITECH_SNAP__)",
  "#  ifndef WIN32_LEAN_AND_MEAN",
  "#   define WIN32_LEAN_AND_MEAN 1",
  "#  endif",
  "#  include <windows.h>",
  "# endif",
  "# ifndef APIENTRY",
  "#  define APIENTRY",
  "# endif",
  "# ifndef APIENTRYP",
  "#  define APIENTRYP APIENTRY *",
  "# endif",
  "",
  "# if defined (__cplusplus)",
  "extern \"C\" \x7b",
  "# endif",
  "",
  "/* Versions */"]

def implementationOpening : String := "# if defined (GLAPI_IMPLEMENTATION)"

def implementationClosing : String := "# endif /* GLAPI_IMPLEMENTATION */"

def ending : List String := [
  "",
  "# if defined (__cplusplus)",
  "\x7d",
  "# endif",
  "",
  "#endif /* GLAPI_H */"]

def places : List String := [
  "\x7b_GL_VERSION_DEF_\x7d",
  "",
  "/* Types */",
  "\x7b_GL_TYPES_\x7d",
  "",
  "/* Constants and entry points */",
  "\x7b_GL_API_DEC_\x7d",
  "/* Loader */",
  "\x7b_API_DEC_\x7d",
  "",
  implementationOpening,
  "",
  "\x7b_API_STATIC_\x7d",
  "",
  "\x7b_API_DEF_\x7d",
  "",
  "\x7b_GL_API_DEF_\x7d",
  implementationClosing]

def skeleton : String := unlines (
  ["/*", " * glapi.h - OpenGL \x7b_VERSION_\x7d function loader, \x7b_PROFILE_\x7d profile."] ++ notice ++
    inclusionGuard ++ foreignGuards ++
    ["# define GLAPI_GL_VERSION \"\x7b_VERSION_\x7d\"", "# define GLAPI_GL_PROFILE \"\x7b_PROFILE_\x7d\""] ++
    environment ++ places ++ ending)

def interfaceLines : List String := [
  "typedef void *(*glapiLoadProc_t)(const char *name);",
  "",
  "/* Opens the system OpenGL library and loads every entry point.",
  " * Returns 1 on success, 0 if the library could not be opened. */",
  "int     glapiLoadGL(void);",
  "",
  "/* Loads every entry point through `proc` (e.g. SDL_GL_GetProcAddress). */",
  "int     glapiLoadGLLoader(glapiLoadProc_t proc);",
  "",
  "/* Releases the library opened by glapiLoadGL(). */",
  "void    glapiUnloadGL(void);"]

def interface : String := unlines interfaceLines

def implementationLines : List String := [
  "\treturn (1);",
  "\x7d",
  "",
  "int glapiLoadGL(void) \x7b",
  "\tif (!glapi_open())",
  "\t\treturn (0);",
  "\tg_glapi_proc = 0;",
  "\treturn (glapi_load_all());",
  "\x7d",
  "",
  "int glapiLoadGLLoader(glapiLoadProc_t proc) \x7b",
  "\tif (!proc)",
  "\t\treturn (0);",
  "\tg_glapi_proc = proc;",
  "\treturn (glapi_load_all());",
  "\x7d",
  "",
  "void glapiUnloadGL(void) \x7b",
  "\tglapi_close();",
  "\tg_glapi_proc = 0;",
  "\x7d"]

def implementation : String :=
  unlines (["static int glapi_load_all(void) \x7b", "\x7b_GL_API_IMPL_\x7d"] ++ implementationLines)

def supportLines : List String := [
  "#  if defined (_WIN32)",
  "#   include <windows.h>",
  "#  else",
  "#   include <dlfcn.h>",
  "#  endif",
  "",
  "static void             *g_glapi_library = 0;",
  "static glapiLoadProc_t  g_glapi_proc = 0;",
  "",
  "#  if defined (_WIN32)",
  "typedef PROC (WINAPI *glapiWglGetProcAddress_t)(LPCSTR);",
  "static glapiWglGetProcAddress_t g_glapi_wgl_proc = 0;",
  "#  elif !defined (__APPLE__)",
  "typedef void *(*glapiGlxGetProcAddress_t)(const char *);",
  "static glapiGlxGetProcAddress_t g_glapi_glx_proc = 0;",
  "#  endif",
  "",
  "static int glapi_open(void) \x7b",
  "#  if defined (_WIN32)",
  "\tg_glapi_library = (void *) LoadLibraryA(\"opengl32.dll\");",
  "\tif (!g_glapi_library)",
  "\t\treturn (0);",
  "\tg_glapi_wgl_proc = (glapiWglGetProcAddress_t) GetProcAddress((HMODULE) g_glapi_library, \"wglGetProcAddress\");",
  "\treturn (1);",
  "#  else",
  "#   if defined (__APPLE__)",
  "\tstatic const char *names[] = \x7b",
  "\t\t\"/System/Library/Frameworks/OpenGL.framework/OpenGL\",",
  "\t\t\"/System/Library/Frameworks/OpenGL.framework/Versions/Current/OpenGL\",",
  "\t\t0",
  "\t\x7d;",
  "#   else",
  "\tstatic const char *names[] = \x7b \"libGL.so.1\", \"libGL.so\", 0 \x7d;",
  "#   endif",
  "",
  "\tfor (int i = 0; names[i] && !g_glapi_library; i++)",
  "\t\tg_glapi_library = dlopen(names[i], RTLD_NOW | RTLD_GLOBAL);",
  "\tif (!g_glapi_library)",
  "\t\treturn (0);",
  "#   if !defined (__APPLE__)",
  "\tg_glapi_glx_proc = (glapiGlxGetProcAddress_t) dlsym(g_glapi_library, \"glXGetProcAddressARB\");",
  "#   endif",
  "\treturn (1);",
  "#  endif",
  "\x7d",
  "",
  "static void glapi_close(void) \x7b",
  "\tif (!g_glapi_library)",
  "\t\treturn ;",
  "#  if defined (_WIN32)",
  "\tFreeLibrary((HMODULE) g_glapi_library);",
  "#  else",
  "\tdlclose(g_glapi_library);",
  "#  endif",
  "\tg_glapi_library = 0;",
  "\x7d",
  "",
  "static void *load(const char *name) \x7b",
  "\tvoid    *result = 0;",
  "",
  "\tif (g_glapi_proc)",
  "\t\treturn (g_glapi_proc(name));",
  "#  if defined (_WIN32)",
  "\tif (g_glapi_wgl_proc)",
  "\t\tresult = (void *) g_glapi_wgl_proc(name);",
  "\tif (!result)",
  "\t\tresult = (void *) GetProcAddress((HMODULE) g_glapi_library, name);",
  "#  else",
  "#   if !defined (__APPLE__)",
  "\tif (g_glapi_glx_proc)",
  "\t\tresult = g_glapi_glx_proc(name);",
  "#   endif",
  "\tif (!result)",
  "\t\tresult = dlsym(g_glapi_library, name);",
  "#  endif",
  "\treturn (result);",
  "\x7d"]

def support : String := unlines supportLines

end GLHeader.Header.Builtin
